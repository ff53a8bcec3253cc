import Gamin.Hurd.Runs

/-! # What a run of the Hurd backend amounts to

The paths with a monitor are those that a subscription is on, and the directories above them.
-/

namespace Gamin.Hurd

open Gamin Gamin.Server Gamin.Inotify Gamin.Library

variable {backend : HurdBackend} {m : Pointer} {monitor : Monitor}

/-! ## What there is a monitor for -/

/-- The directory that contains a path. -/
def above (names : Path) : Option Path := if names = [] then none else some names.dropLast

theorem above_concat (names : Path) (name : Bytes) : above (names ++ [name]) = some names := by
  simp [above]

theorem above_cases {names parent : Path} (isAbove : above names = some parent) :
    ∃ name, names = parent ++ [name] := by
  unfold above at isAbove
  split at isAbove
  · cases isAbove
  · rename_i nonempty
    obtain rfl := Option.some.inj isAbove
    exact ⟨names.getLast nonempty, (List.dropLast_append_getLast nonempty).symm⟩

theorem above_of_prefix {ancestor names : Path} (isPrefix : ancestor <+: names) : Above above ancestor names := by
  induction names using List.reverseRecOn with
  | nil =>
    obtain rfl := List.prefix_nil.mp isPrefix
    exact .refl
  | append_singleton names name inductionHypothesis =>
    rcases List.prefix_concat_iff.mp isPrefix with rfl | shorter
    · exact .refl
    · exact .head (above_concat names name) (inductionHypothesis shorter)

theorem prefix_of_above {ancestor names : Path} (isAbove : Above above ancestor names) : ancestor <+: names := by
  induction isAbove with
  | refl => exact List.prefix_rfl
  | tail _ edge inductionHypothesis =>
    obtain ⟨name, rfl⟩ := above_cases edge
    exact (List.prefix_append _ [name]).trans inductionHypothesis

/-- The monitors of the tree are those that the subscriptions demand. -/
theorem Upheld.spanned (upheld : Upheld backend) :
    Spanned above
      (fun names => ValidPath names ∧ ∃ m, ∃ sub ∈ backend.subsAt m, (backend.subscriptions sub).path = render names)
      (fun names => ValidPath names ∧ ∃ m, backend.pathHash (render names) = some m) where
  keeps := by
    rintro names ⟨valid, m, sub, member, path⟩
    exact ⟨valid, m, path ▸ upheld.shaped.own member⟩
  closed := by
    rintro names parent ⟨valid, m, found⟩ isAbove
    obtain ⟨name, rfl⟩ := above_cases isAbove
    exact ⟨(validPath_concat.mp valid).1, upheld.shaped.above valid found⟩
  used := by
    rintro names ⟨valid, m, found⟩
    obtain ⟨monitor, present, path⟩ := upheld.shaped.lookup found
    obtain subscribed | children | spare := upheld.used m monitor present
    · obtain ⟨sub, rest, isSub⟩ := List.exists_cons_of_ne_nil subscribed
      have member : sub ∈ monitor.subs := isSub ▸ List.mem_cons_self
      refine .inl ⟨valid, m, sub, ?_, (upheld.shaped.served m monitor present sub member).trans path⟩
      rwa [subsAt_of present]
    · right
      obtain ⟨name, listed⟩ : ∃ name, name ∈ monitor.children := by
        by_contra none
        refine children (AList.ext (List.eq_nil_iff_forall_not_mem.mpr fun entry member => none ⟨entry.1, ?_⟩))
        exact AList.mem_keys.mpr (List.mem_keys_of_mem member)
      obtain ⟨child, isChild⟩ := Option.isSome_iff_exists.mp (AList.lookup_isSome.mpr listed)
      obtain ⟨validChild, foundChild⟩ :=
        (upheld.shaped.children m monitor names name child present valid path).mp isChild
      exact ⟨names ++ [name], ⟨validChild, child, foundChild⟩, above_concat names name⟩
    · cases spare

/-- There are finitely many monitors, so that their paths do not get longer for ever. -/
theorem Shaped.bounded (shaped : Shaped backend) :
    ∃ bound, ∀ m monitor, backend.monitors m = some monitor → monitor.path.length ≤ bound := by
  have upTo (count : Nat) : ∃ bound, ∀ m < count, ∀ monitor, backend.monitors m = some monitor →
      monitor.path.length ≤ bound := by
    induction count with
    | zero => exact ⟨0, fun m small => absurd small (Nat.not_lt_zero m)⟩
    | succ count inductionHypothesis =>
      obtain ⟨bound, bounded⟩ := inductionHypothesis
      refine ⟨max bound (((backend.monitors count).map fun monitor => monitor.path.length).getD 0), ?_⟩
      intro m small monitor present
      rcases Nat.lt_succ_iff_lt_or_eq.mp small with before | rfl
      · exact (bounded m before monitor present).trans (le_max_left ..)
      · rw [present]
        exact le_max_right ..
  obtain ⟨bound, bounded⟩ := upTo backend.next
  refine ⟨bound, fun m monitor present => bounded m ?_ monitor present⟩
  by_contra beyond
  exact nomatch (shaped.fresh m (Nat.le_of_not_lt beyond)).symm.trans present

theorem Upheld.found_iff (upheld : Upheld backend) {names : Path} (valid : ValidPath names) :
    (∃ m, backend.pathHash (render names) = some m) ↔
      ∃ m, ∃ sub ∈ backend.subsAt m, ∃ below, ValidPath below ∧ names <+: below ∧
        (backend.subscriptions sub).path = render below := by
  obtain ⟨bound, bounded⟩ := upheld.shaped.bounded
  have deeper (child parent : Path) (isAbove : above child = some parent) : parent.length < child.length := by
    obtain ⟨name, rfl⟩ := above_cases isAbove
    rw [List.length_append, List.length_singleton]
    exact Nat.lt_succ_self _
  have limit (key : Path) (kept : ValidPath key ∧ ∃ m, backend.pathHash (render key) = some m) :
      key.length ≤ bound := by
    obtain ⟨-, m, found⟩ := kept
    obtain ⟨monitor, present, path⟩ := upheld.shaped.lookup found
    exact (length_le_render key).trans (path ▸ bounded m monitor present)
  have kept := @Spanned.kept_iff _ _ _ _ names upheld.spanned _ deeper _ limit
  constructor
  · intro found
    obtain ⟨below, ⟨validBelow, m, sub, member, path⟩, isAbove⟩ := kept.mp ⟨valid, found⟩
    exact ⟨m, sub, member, below, validBelow, prefix_of_above isAbove, path⟩
  · rintro ⟨m, sub, member, below, validBelow, isPrefix, path⟩
    exact (kept.mpr ⟨below, ⟨validBelow, m, sub, member, path⟩, above_of_prefix isPrefix⟩).2

/-- A run without reports of new entries returns. -/
theorem run_returns {steps : List HurdStep} {backend : HurdBackend} (upheld : Upheld backend)
    (normal : ∀ sub, .add sub ∈ steps → Normal (backend.subscriptions sub).path)
    (old : ∀ port name answer, .dirChanged port .new name answer ∉ steps) :
    ∃ last, steps.foldlM HurdBackend.step backend = some last := by
  induction steps generalizing backend with
  | nil => exact ⟨backend, rfl⟩
  | cons step steps inductionHypothesis =>
    obtain ⟨-, already⟩ | ⟨-, after, stepped, upheldAfter, paths⟩ :=
      @Upheld.step backend upheld step fun sub same => normal sub (same ▸ List.mem_cons_self)
    · cases step with
      | dirChanged port change name answer =>
        cases change with
        | new => exact absurd List.mem_cons_self (old port name answer)
        | null | unlink | renumber | other => exact already.elim
      | add | remove | removeAll | idle | fileChanged => exact already.elim
    · obtain ⟨last, ran⟩ := inductionHypothesis upheldAfter
        (fun sub member => by
          rw [paths]
          exact normal sub (List.mem_cons_of_mem _ member))
        fun port name answer member => old port name answer (List.mem_cons_of_mem _ member)
      refine ⟨last, ?_⟩
      rw [List.foldlM_cons, stepped]
      exact ran

/-- Every subscription is on `"/a"`. -/
def onA (address : Pointer) : GamSubscription := gamSubscriptionNew address (render [[97]]) 0 1 false 0

theorem onA_normal (sub : Pointer) : Normal (onA sub).path := ⟨[[97]], by simp [ValidPath, slash], rfl⟩

/-- Everything can be opened and watched. -/
def everyAnswer : SystemAnswers where
  port _ := true
  watch _ := {
    opened := .ok 5
    fileNotice := .none
    dirNotice := .none
    errno := .none }
  opendir _ := .ok []

/-- Two subscriptions are taken on, and one of them is removed. -/
def twoAdded : List HurdStep := [.add 0, .add 1, .idle everyAnswer, .remove 0, .idle everyAnswer]

theorem twoAdded_returns : ∃ last, twoAdded.foldlM HurdBackend.step (.new onA) = some last :=
  run_returns (HurdBackend.new_upheld onA) (fun sub _ => onA_normal sub) (by simp [twoAdded])

/-- After every run that returns, there is a monitor for a path if and only if a subscription is on the path or below
it; a subscription is only on the monitor at its own path; and an idle source is installed if something is pending. -/
theorem monitors_exact {subscriptions : Pointer → GamSubscription} {steps : List HurdStep} {last : HurdBackend}
    (normal : ∀ sub, .add sub ∈ steps → Normal (subscriptions sub).path)
    (ran : steps.foldlM HurdBackend.step (.new subscriptions) = some last) :
    (∀ names, ValidPath names → ((∃ m, last.pathHash (render names) = some m) ↔
      ∃ m, ∃ sub ∈ last.subsAt m, ∃ below, ValidPath below ∧ names <+: below ∧
        (subscriptions sub).path = render below)) ∧
      (∀ m, ∀ sub ∈ last.subsAt m, last.pathHash (subscriptions sub).path = some m) ∧
      (last.newSubs ≠ [] ∨ last.removedSubs ≠ [] → last.idleSources = 1) := by
  obtain ⟨upheld, paths⟩ := (HurdBackend.new_upheld subscriptions).run normal ran
  refine ⟨fun names valid => ?_, fun m sub member => ?_, fun pending => ?_⟩
  · have exact := upheld.found_iff valid
    simp only [paths] at exact
    exact exact
  · have own := upheld.shaped.own member
    rw [paths] at own
    exact own
  · rw [upheld.source, upheld.pending pending]
    rfl

theorem twoAdded_watched : ∃ last, twoAdded.foldlM HurdBackend.step (.new onA) = some last ∧
    ∃ m, last.pathHash (render []) = some m := by
  obtain ⟨last, ran⟩ := twoAdded_returns
  obtain ⟨exact, -⟩ := monitors_exact (fun sub _ => onA_normal sub) ran
  have subs : ((twoAdded.foldlM HurdBackend.step (.new onA)).map fun last => last.subsAt 1) = some [1] := by
    decide +kernel
  rw [ran] at subs
  have subs : last.subsAt 1 = [1] := Option.some.inj subs
  refine ⟨last, ran, (exact [] (by decide)).mpr ⟨1, 1, ?_, [[97]], by decide, List.nil_prefix, rfl⟩⟩
  rw [subs]
  exact List.mem_singleton_self 1

/-- No assertion fails in a run but the one of `monitor_watch` that the path is not watched yet, and it does if and only
if a new entry is reported whose monitor has a descriptor. -/
theorem step_fails_iff {subscriptions : Pointer → GamSubscription} {steps : List HurdStep} {last : HurdBackend}
    {step : HurdStep} (normal : ∀ sub, .add sub ∈ steps ++ [step] → Normal (subscriptions sub).path)
    (ran : steps.foldlM HurdBackend.step (.new subscriptions) = some last) :
    last.step step = none ↔ last.WatchedAlready step := by
  obtain ⟨upheld, paths⟩ := (HurdBackend.new_upheld subscriptions).run
    (fun sub member => normal sub (List.mem_append_left _ member)) ran
  obtain ⟨failed, already⟩ | ⟨fine, after, stepped, -⟩ := @Upheld.step last upheld step fun sub same => by
    rw [paths]
    exact normal sub (List.mem_append_right _ (same ▸ List.mem_singleton_self _))
  · exact iff_of_true failed already
  · exact iff_of_false (fun failed => nomatch stepped.symm.trans failed) fine

/-- The entry was deleted without notice and is made again. -/
theorem twoAdded_fails : ∃ last, twoAdded.foldlM HurdBackend.step (.new onA) = some last ∧
    last.step (.dirChanged 0 .new [97] (everyAnswer.watch [])) = none := by
  obtain ⟨last, ran⟩ := twoAdded_returns
  have top : ((twoAdded.foldlM HurdBackend.step (.new onA)).bind fun last => last.monitors 0).map
      (fun monitor => monitor.children.lookup [97]) = some (some 1) := by
    decide +kernel
  have below : ((twoAdded.foldlM HurdBackend.step (.new onA)).bind fun last => last.monitors 1).map
      (fun monitor => monitor.fd) = some (some 5) := by
    decide +kernel
  rw [ran] at top below
  obtain ⟨monitor, present, listed⟩ := Option.map_eq_some_iff.mp top
  obtain ⟨child, isChild, opened⟩ := Option.map_eq_some_iff.mp below
  refine ⟨last, ran, (step_fails_iff (fun sub _ => onA_normal sub) ran).mpr
    ⟨monitor, 1, child, present, listed, isChild, ?_⟩⟩
  rw [opened]
  exact Option.some_ne_none 5

end Gamin.Hurd
