import Gamin.Inotify.Paths
import Mathlib.Data.Nat.Find

/-! # Looking for an ancestor that can be watched

The loop of `ip_watch_parent` when the kernel answers each call anew.  It cuts the path at its last
separator until a try is answered with something else than `ENOENT`; a path that starts with its only
separator is not cut, and is tried once more.
-/

namespace Gamin.Inotify

open Gamin Gamin.Server

/-! ## The loop -/

/-- `ip_watch_parent` for as many rounds: the paths that have been tried, and what is returned if it does
return.  The answers are those of the calls to `inotify_add_watch`; the number of an answer stands for the
descriptor. -/
def ipWatchParentRounds (answers : Nat → Bytes → WatchAnswer) :
    (rounds call : Nat) → (pathCopy : Bytes) → List Bytes × Option (Option (Bytes × Nat))
  | 0, _, _ => ([], none)
  | rounds + 1, call, pathCopy =>
    match parentPath pathCopy with
    | none => ([], some none)
    | some cut =>
      match answers call cut with
      | .watched wd => ([cut], some (some (cut, wd)))
      | .failed => ([cut], some none)
      | .noent =>
        match ipWatchParentRounds answers rounds (call + 1) cut with
        | (tried, returned) => (cut :: tried, returned)

/-- A directory that the path goes through. -/
def IsAncestor (dir path : Bytes) : Prop :=
  dir ≠ [] ∧ dir ++ [slash] <+: path ∨ dir = [slash] ∧ dir <+: path ∧ dir ≠ path

/-- The loop ends, and goes from the path to shorter and shorter ancestors of it, for an absolute path down
to the root if there is nothing before; it returns the nearest one that is there. -/
structure FindsNearest (answers : Nat → Bytes → WatchAnswer) (path : Bytes) : Prop where
  returns : ∃ rounds, (ipWatchParentRounds answers rounds 0 path).2.isSome
  shorter : ∀ rounds, (path :: (ipWatchParentRounds answers rounds 0 path).1).Pairwise
    fun earlier later => later.length < earlier.length
  ancestors : ∀ rounds, ∀ tried ∈ (ipWatchParentRounds answers rounds 0 path).1, IsAncestor tried path
  last : path.head? = some slash → ∀ rounds, (ipWatchParentRounds answers rounds 0 path).2.isSome →
    (∀ call tried, (ipWatchParentRounds answers rounds 0 path).1[call]? = some tried →
      answers call tried = .noent) →
    (ipWatchParentRounds answers rounds 0 path).1.getLast? = some [slash]
  nearest : ∀ rounds parent wd, (ipWatchParentRounds answers rounds 0 path).2 = some (some (parent, wd)) →
    ∃ call, answers call parent = .watched wd ∧
      (ipWatchParentRounds answers rounds 0 path).1[call]? = some parent ∧
      ∀ other, IsAncestor other path → parent.length < other.length →
        ∃ earlier < call, answers earlier other = .noent

/-! ## The ancestors that are tried -/

/-- The ancestors that the loop comes to before it tries a path again. -/
def shorterAncestors (path : Bytes) : List Bytes :=
  match _cut : parentPath path with
  | none => []
  | some parent => if _same : parent = path then [] else parent :: shorterAncestors parent
termination_by path.length
decreasing_by exact parentPath_shorter _cut _same

theorem shorterAncestors_cons {path parent : Bytes} (cut : parentPath path = some parent)
    (different : parent ≠ path) : shorterAncestors path = parent :: shorterAncestors parent := by
  rw [shorterAncestors]
  split
  case h_1 none => simp [none] at cut
  case h_2 other same =>
    obtain rfl := Option.some.inj (same.symm.trans cut)
    rw [dif_neg different]

theorem shorterAncestors_stuck {path : Bytes} (stays : parentPath path = some path) :
    shorterAncestors path = [] := by
  rw [shorterAncestors]
  split
  · rfl
  case h_2 parent cut =>
    rw [stays] at cut
    rw [dif_pos (Option.some.inj cut).symm]

theorem shorterAncestors_none {path : Bytes} (none : parentPath path = none) : shorterAncestors path = [] := by
  rw [shorterAncestors]
  split
  · rfl
  case h_2 parent cut => simp [none] at cut

/-- Where a path is cut. -/
theorem parentPath_split {path : Bytes} (separator : slash ∈ path) :
    ∃ front name, path = front ++ slash :: name ∧ slash ∉ name ∧
      parentPath path = some (if front = [] then path else front) := by
  have whole := List.rdropWhile_append_rtakeWhile (p := fun byte => decide (byte ≠ slash)) (l := path)
  have nonempty : path.rdropWhile (fun byte => decide (byte ≠ slash)) ≠ [] := by
    intro empty
    simpa using List.rdropWhile_eq_nil_iff.mp empty slash separator
  have ends : (path.rdropWhile (fun byte => decide (byte ≠ slash))).getLast nonempty = slash := by
    simpa using List.rdropWhile_last_not (fun byte => decide (byte ≠ slash)) path nonempty
  have front := List.dropLast_append_getLast nonempty
  rw [ends] at front
  refine ⟨(path.rdropWhile fun byte => decide (byte ≠ slash)).dropLast,
    path.rtakeWhile fun byte => decide (byte ≠ slash), ?_, ?_, ?_⟩
  · rw [← List.singleton_append, ← List.append_assoc, front]
    exact whole.symm
  · intro member
    simpa using List.mem_rtakeWhile_imp member
  · rw [parentPath, if_pos separator]

theorem parentPath_none {path : Bytes} : parentPath path = none ↔ slash ∉ path := by
  unfold parentPath
  split <;> simp [*]

/-- Where a path is cut for good: at its last separator. -/
theorem parentPath_cut {path parent : Bytes} (cut : parentPath path = some parent) (different : parent ≠ path) :
    parent ≠ [] ∧ ∃ name, path = parent ++ slash :: name ∧ slash ∉ name := by
  have separator : slash ∈ path := by
    by_contra absent
    simp [parentPath_none.mpr absent] at cut
  obtain ⟨front, name, split, bare, found⟩ := parentPath_split separator
  obtain rfl := Option.some.inj (found.symm.trans cut)
  split at different
  case isTrue => exact absurd rfl different
  case isFalse nonempty =>
    rw [if_neg nonempty]
    exact ⟨nonempty, name, split, bare⟩

/-- Where it is not cut: it starts with its only separator. -/
theorem parentPath_stuck {path : Bytes} (stays : parentPath path = some path) :
    ∃ name, path = slash :: name ∧ slash ∉ name := by
  have separator : slash ∈ path := by
    by_contra absent
    simp [parentPath_none.mpr absent] at stays
  obtain ⟨front, name, split, bare, found⟩ := parentPath_split separator
  by_cases empty : front = []
  · exact ⟨name, by rw [split, empty, List.nil_append], bare⟩
  · rw [found, if_neg empty] at stays
    have same := congrArg List.length (Option.some.inj stays)
    rw [split, List.length_append, List.length_cons] at same
    omega

/-- An ancestor of a path is the one that it is cut to, or an ancestor of that. -/
theorem isAncestor_cut {path parent other : Bytes} (cut : parentPath path = some parent) (different : parent ≠ path)
    (ancestor : IsAncestor other path) (long : 1 < other.length) : other = parent ∨ IsAncestor other parent := by
  obtain ⟨_, name, rfl, bare⟩ := parentPath_cut cut different
  cases ancestor with
  | inr root =>
    rw [root.1] at long
    exact absurd long (Nat.lt_irrefl 1)
  | inl within =>
    obtain ⟨otherNonempty, rest, whole⟩ := within
    rw [List.append_assoc, List.singleton_append] at whole
    -- the separator behind the other ancestor is the last one of the path, or an earlier one
    cases List.append_eq_append_iff.mp whole with
    | inl earlier =>
      obtain ⟨between, longer, after⟩ := earlier
      cases between with
      | nil => exact .inl (by rw [longer, List.append_nil])
      | cons first between =>
        obtain ⟨rfl, _⟩ := List.cons.inj after
        exact .inr (.inl ⟨otherNonempty, between, by rw [longer, List.append_assoc, List.singleton_append]⟩)
    | inr later =>
      obtain ⟨between, longer, after⟩ := later
      cases between with
      | nil => exact .inl (by rw [longer, List.append_nil])
      | cons first between =>
        obtain ⟨_, inName⟩ := List.cons.inj after
        exact absurd (by rw [inName]; simp) bare

/-- All ancestors but the root are tried, unless the loop ends before. -/
theorem isAncestor_mem {path other : Bytes} (ancestor : IsAncestor other path) (long : 1 < other.length) :
    other ∈ shorterAncestors path := by
  -- it is longer than the root, so its own name and a slash come first in the path
  have separated : ∃ rest, other ++ slash :: rest = path := by
    cases ancestor with
    | inr root =>
      rw [root.1] at long
      exact absurd long (Nat.lt_irrefl 1)
    | inl within =>
      obtain ⟨rest, whole⟩ := within.2
      exact ⟨rest, by rw [← whole, List.append_assoc, List.singleton_append]⟩
  induction path using shorterAncestors.induct with
  | case1 path none =>
    obtain ⟨rest, rfl⟩ := separated
    exact absurd (by simp) (parentPath_none.mp none)
  | case2 path stays =>
    obtain ⟨rest, whole⟩ := separated
    obtain ⟨name, rfl, bare⟩ := parentPath_stuck stays
    cases other with
    | nil => simp at long
    | cons first other =>
      have inName := (List.cons.inj whole).2
      exact absurd (by rw [← inName]; simp) bare
  | case3 path parent cut different inductionHypothesis =>
    rw [shorterAncestors_cons cut different, List.mem_cons]
    cases isAncestor_cut cut different ancestor long with
    | inl here => exact .inl here
    | inr above =>
      refine .inr (inductionHypothesis above ?_)
      cases above with
      | inl within =>
        obtain ⟨rest, whole⟩ := within.2
        exact ⟨rest, by rw [← whole, List.append_assoc, List.singleton_append]⟩
      | inr root =>
        rw [root.1] at long
        exact absurd long (Nat.lt_irrefl 1)

/-- What is tried before the loop comes to a path again are shorter and shorter ancestors. -/
theorem shorterAncestors_descend (path : Bytes) :
    (path :: shorterAncestors path).Pairwise (fun earlier later => later.length < earlier.length) ∧
      ∀ tried ∈ shorterAncestors path, IsAncestor tried path := by
  induction path using shorterAncestors.induct with
  | case1 path none =>
    rw [shorterAncestors_none none]
    exact ⟨List.pairwise_singleton _ _, nofun⟩
  | case2 path stays =>
    rw [shorterAncestors_stuck stays]
    exact ⟨List.pairwise_singleton _ _, nofun⟩
  | case3 path parent cut different inductionHypothesis =>
    obtain ⟨descends, above⟩ := inductionHypothesis
    obtain ⟨nonempty, name, whole, _⟩ := parentPath_cut cut different
    have shorter := parentPath_shorter cut different
    -- the parent is cut off, and what is tried later is shorter still
    have within : parent <+: path := ⟨slash :: name, whole.symm⟩
    rw [shorterAncestors_cons cut different]
    constructor
    · refine List.pairwise_cons.mpr ⟨fun tried member => ?_, descends⟩
      cases List.mem_cons.mp member with
      | inl here => exact here ▸ shorter
      | inr later => exact ((List.pairwise_cons.mp descends).1 tried later).trans shorter
    · intro tried member
      cases List.mem_cons.mp member with
      | inl here =>
        subst here
        exact .inl ⟨nonempty, name, by rw [whole, List.append_assoc, List.singleton_append]⟩
      | inr later =>
        cases above tried later with
        | inl inside => exact .inl ⟨inside.1, inside.2.trans within⟩
        | inr root =>
          refine .inr ⟨root.1, root.2.1.trans within, ?_⟩
          rintro rfl
          have tooShort := (List.pairwise_cons.mp descends).1 tried later
          omega

/-! ## What the loop does -/

section

variable {answers : Nat → Bytes → WatchAnswer} {path : Bytes}

/-- What the loop returns at an ancestor whose try is not answered with `ENOENT`. -/
def answered (parent : Bytes) : WatchAnswer → Option (Bytes × Nat)
  | .watched wd => some (parent, wd)
  | _ => none

/-- The loop up to the first try that is answered otherwise. -/
theorem rounds_found {call found : Nat} {parent : Bytes} (here : (shorterAncestors path)[found]? = some parent)
    (absent : ∀ earlier < found, ∀ tried, (shorterAncestors path)[earlier]? = some tried →
      answers (call + earlier) tried = .noent)
    (other : answers (call + found) parent ≠ .noent) (rounds : Nat) :
    ipWatchParentRounds answers rounds call path =
      if rounds ≤ found then ((shorterAncestors path).take rounds, none)
      else ((shorterAncestors path).take (found + 1), some (answered parent (answers (call + found) parent))) := by
  -- along the ancestors, each of which is one round
  induction path using shorterAncestors.induct generalizing call found rounds with
  | case1 path none => simp [shorterAncestors_none none] at here
  | case2 path stays => simp [shorterAncestors_stuck stays] at here
  | case3 path first cut different inductionHypothesis =>
    rw [shorterAncestors_cons cut different] at here absent ⊢
    cases rounds with
    | zero => simp [ipWatchParentRounds]
    | succ rounds =>
      simp only [ipWatchParentRounds, cut]
      cases found with
      | zero =>
        obtain rfl := Option.some.inj here
        rw [if_neg (by omega)]
        cases answer : answers call first with
        | watched wd => simp [answered]
        | noent => exact absurd answer other
        | failed => simp [answered]
      | succ found =>
        have later : ∀ earlier < found, ∀ tried, (shorterAncestors first)[earlier]? = some tried →
            answers (call + 1 + earlier) tried = .noent := by
          intro earlier before tried at'
          rw [Nat.add_assoc, Nat.add_comm 1]
          exact absent (earlier + 1) (by omega) tried at'
        have same : call + 1 + found = call + (found + 1) := by omega
        have missing : answers call first = .noent := absent 0 (Nat.zero_lt_succ found) first rfl
        rw [missing]
        dsimp only
        rw [inductionHypothesis here later (same ▸ other) rounds, same]
        by_cases short : rounds ≤ found
        · rw [if_pos short, if_pos (Nat.succ_le_succ short)]
          rfl
        · rw [if_neg short, if_neg (fun long => short (Nat.le_of_succ_le_succ long))]
          rfl

/-- A path that is not absolute is cut until there is no separator left. -/
theorem rounds_relative {call : Nat} (relative : path.head? ≠ some slash)
    (absent : ∀ earlier tried, (shorterAncestors path)[earlier]? = some tried →
      answers (call + earlier) tried = .noent) (rounds : Nat) :
    ipWatchParentRounds answers rounds call path =
      if rounds ≤ (shorterAncestors path).length then ((shorterAncestors path).take rounds, none)
      else (shorterAncestors path, some none) := by
  induction path using shorterAncestors.induct generalizing call rounds with
  | case1 path none =>
    rw [shorterAncestors_none none]
    cases rounds with
    | zero => rfl
    | succ rounds => simp [ipWatchParentRounds, none]
  | case2 path stays =>
    obtain ⟨name, rfl, _⟩ := parentPath_stuck stays
    exact absurd rfl relative
  | case3 path first cut different inductionHypothesis =>
    rw [shorterAncestors_cons cut different] at absent ⊢
    cases rounds with
    | zero => simp [ipWatchParentRounds]
    | succ rounds =>
      have missing : answers call first = .noent := absent 0 first rfl
      have later : ∀ earlier tried, (shorterAncestors first)[earlier]? = some tried →
          answers (call + 1 + earlier) tried = .noent := by
        intro earlier tried at'
        rw [Nat.add_assoc, Nat.add_comm 1]
        exact absent (earlier + 1) tried at'
      have relativeFirst : first.head? ≠ some slash := by
        obtain ⟨nonempty, name, whole, _⟩ := parentPath_cut cut different
        rwa [whole, List.head?_append_of_ne_nil _ nonempty] at relative
      simp only [ipWatchParentRounds, cut, missing, inductionHypothesis relativeFirst later rounds,
        List.length_cons]
      by_cases short : rounds ≤ (shorterAncestors first).length
      · rw [if_pos short, if_pos (Nat.succ_le_succ short)]
        rfl
      · rw [if_neg short, if_neg (fun long => short (Nat.le_of_succ_le_succ long))]

/-- An absolute path is cut down to one that is tried again. -/
theorem rounds_absolute {call : Nat} (absolute : path.head? = some slash)
    (absent : ∀ earlier tried, (shorterAncestors path)[earlier]? = some tried →
      answers (call + earlier) tried = .noent) :
    (ipWatchParentRounds answers ((shorterAncestors path).length + 1) call path).1 =
      shorterAncestors path ++ [(path :: shorterAncestors path).getLast (List.cons_ne_nil _ _)] := by
  induction path using shorterAncestors.induct generalizing call with
  | case1 path none =>
    have separator : slash ∈ path := List.mem_of_mem_head? absolute
    exact absurd separator (parentPath_none.mp none)
  | case2 path stays =>
    rw [shorterAncestors_stuck stays]
    simp only [List.length_nil, ipWatchParentRounds, stays]
    split <;> rfl
  | case3 path first cut different inductionHypothesis =>
    rw [shorterAncestors_cons cut different] at absent
    have missing : answers call first = .noent := absent 0 first rfl
    have later : ∀ earlier tried, (shorterAncestors first)[earlier]? = some tried →
        answers (call + 1 + earlier) tried = .noent := by
      intro earlier tried at'
      rw [Nat.add_assoc, Nat.add_comm 1]
      exact absent (earlier + 1) tried at'
    have absoluteFirst : first.head? = some slash := by
      obtain ⟨nonempty, name, whole, _⟩ := parentPath_cut cut different
      rwa [whole, List.head?_append_of_ne_nil _ nonempty] at absolute
    have rest := inductionHypothesis absoluteFirst later
    simp only [shorterAncestors_cons cut different, List.length_cons]
    rw [ipWatchParentRounds]
    simp only [cut, missing, rest]
    rfl

/-- If the path is absolute, a try for one of these ancestors is answered with something else than `ENOENT`. -/
def TopIsThere (answers : Nat → Bytes → WatchAnswer) (path : Bytes) : Prop :=
  path.head? = some slash → ∃ call parent, (shorterAncestors path)[call]? = some parent ∧
    answers call parent ≠ .noent

/-- The property, for a loop that goes along the ancestors up to some place. -/
theorem findsNearest_of_rounds {stops : Nat} {outcome : Option (Bytes × Nat)}
    (rounds : ∀ rounds, ipWatchParentRounds answers rounds 0 path =
      if rounds < stops then ((shorterAncestors path).take rounds, none)
      else ((shorterAncestors path).take stops, some outcome))
    (absolute : path.head? = some slash → ∃ call tried, call < stops ∧
      (shorterAncestors path)[call]? = some tried ∧ answers call tried ≠ .noent)
    (nearest : ∀ parent wd, outcome = some (parent, wd) → ∃ call, answers call parent = .watched wd ∧
      call < stops ∧ (shorterAncestors path)[call]? = some parent ∧
      ∀ earlier < call, ∀ tried, (shorterAncestors path)[earlier]? = some tried →
        answers earlier tried = .noent) : FindsNearest answers path := by
  obtain ⟨descends, above⟩ := shorterAncestors_descend path
  -- every number of rounds tries a beginning of the ancestors
  have tried (count : Nat) : ∃ upTo, (ipWatchParentRounds answers count 0 path).1 =
      (shorterAncestors path).take upTo := by
    rw [rounds]
    split
    · exact ⟨count, rfl⟩
    · exact ⟨stops, rfl⟩
  refine ⟨⟨stops, ?_⟩, fun count => ?_, fun count dir member => ?_, ?_, ?_⟩
  · rw [rounds, if_neg (Nat.lt_irrefl _)]
    rfl
  · obtain ⟨upTo, same⟩ := tried count
    rw [same]
    exact descends.sublist ((List.take_sublist upTo _).cons_cons path)
  · obtain ⟨upTo, same⟩ := tried count
    rw [same] at member
    exact above dir (List.mem_of_mem_take member)
  · intro isAbsolute count returned missing
    obtain ⟨call, dir, inTime, here, other⟩ := absolute isAbsolute
    rw [rounds] at returned missing
    split at returned
    case isTrue => simp at returned
    case isFalse late =>
      rw [if_neg late] at missing
      exact absurd (missing call dir (by rwa [List.getElem?_take_of_lt inTime])) other
  · intro count parent wd returned
    rw [rounds] at returned ⊢
    split at returned
    case isTrue => simp at returned
    case isFalse late =>
      obtain ⟨call, watched, inTime, here, missing⟩ := nearest parent wd (Option.some.inj returned)
      rw [if_neg late]
      refine ⟨call, watched, by rwa [List.getElem?_take_of_lt inTime], fun other ancestor longer => ?_⟩
      have nonempty : 0 < parent.length := by
        cases above parent (List.mem_of_getElem? here) with
        | inl within => exact List.length_pos_iff.mpr within.1
        | inr root => rw [root.1]; exact Nat.one_pos
      obtain ⟨earlier, there⟩ := List.mem_iff_getElem?.mp (isAncestor_mem ancestor (by omega))
      have before : earlier < call := by
        by_contra later
        have ordered := (List.pairwise_cons.mp descends).2
        rw [List.pairwise_iff_getElem] at ordered
        obtain ⟨inList, rfl⟩ := List.getElem?_eq_some_iff.mp here
        obtain ⟨inListToo, rfl⟩ := List.getElem?_eq_some_iff.mp there
        cases Nat.lt_or_eq_of_le (Nat.le_of_not_lt later) with
        | inl after => exact Nat.lt_asymm longer (ordered call earlier inList inListToo after)
        | inr same =>
          subst same
          exact Nat.lt_irrefl _ longer
      exact ⟨earlier, before, missing earlier before other there⟩

/-- The loop finds the nearest ancestor exactly if it need not try a path again. -/
theorem findsNearest_iff (answers : Nat → Bytes → WatchAnswer) (path : Bytes) :
    FindsNearest answers path ↔ TopIsThere answers path := by
  classical
  constructor
  · -- otherwise the last of the ancestors is tried once more
    intro finds absolute
    by_contra nowhere
    have absent : ∀ earlier tried, (shorterAncestors path)[earlier]? = some tried →
        answers (0 + earlier) tried = .noent := by
      intro earlier tried here
      rw [Nat.zero_add]
      by_contra other
      exact nowhere ⟨earlier, tried, here, other⟩
    have again := finds.shorter ((shorterAncestors path).length + 1)
    rw [rounds_absolute absolute absent, ← List.cons_append, List.pairwise_append] at again
    exact Nat.lt_irrefl _ (again.2.2 _ (List.getLast_mem _) _ List.mem_cons_self)
  · intro there
    by_cases somewhere : ∃ call parent, (shorterAncestors path)[call]? = some parent ∧ answers call parent ≠ .noent
    · -- the first try that is not answered with `ENOENT`
      obtain ⟨parent, here, other⟩ := Nat.find_spec somewhere
      have absent : ∀ earlier < Nat.find somewhere, ∀ tried, (shorterAncestors path)[earlier]? = some tried →
          answers earlier tried = .noent := by
        intro earlier before tried at'
        by_contra found
        exact Nat.find_min somewhere before ⟨tried, at', found⟩
      generalize Nat.find somewhere = call at here other absent
      have first : ∀ earlier < call, ∀ tried, (shorterAncestors path)[earlier]? = some tried →
          answers (0 + earlier) tried = .noent := by
        intro earlier
        rw [Nat.zero_add]
        exact absent earlier
      have stops : ∀ rounds, ipWatchParentRounds answers rounds 0 path =
          if rounds < call + 1 then ((shorterAncestors path).take rounds, none)
          else ((shorterAncestors path).take (call + 1), some (answered parent (answers call parent))) := by
        intro rounds
        rw [rounds_found here first (by rwa [Nat.zero_add]) rounds, Nat.zero_add]
        simp only [Nat.lt_succ_iff]
      refine findsNearest_of_rounds stops ?_ ?_
      · exact fun _ => ⟨call, parent, Nat.lt_succ_self call, here, other⟩
      · intro found wd watched
        cases answer : answers call parent with
        | watched number =>
          rw [answer] at watched
          obtain ⟨rfl, rfl⟩ := Prod.mk.inj (Option.some.inj watched)
          exact ⟨call, answer, Nat.lt_succ_self call, here, absent⟩
        | noent => exact absurd answer other
        | failed => simp [answer, answered] at watched
    · -- a relative path comes to an end without having found anything
      have relative : path.head? ≠ some slash := fun absolute => somewhere (there absolute)
      have absent : ∀ earlier tried, (shorterAncestors path)[earlier]? = some tried →
          answers (0 + earlier) tried = .noent := by
        intro earlier tried here
        rw [Nat.zero_add]
        by_contra other
        exact somewhere ⟨earlier, tried, here, other⟩
      have stops : ∀ rounds, ipWatchParentRounds answers rounds 0 path =
          if rounds < (shorterAncestors path).length + 1 then ((shorterAncestors path).take rounds, none)
          else ((shorterAncestors path).take ((shorterAncestors path).length + 1), some none) := by
        intro rounds
        rw [rounds_relative relative absent rounds, List.take_of_length_le (Nat.le_succ _)]
        simp only [Nat.lt_succ_iff]
      exact findsNearest_of_rounds stops (fun absolute => absurd absolute relative) nofun

end

/-- Where the kernel always answers alike, the loop is the one of `ip_start_watching`. -/
theorem ipWatchParent_rounds (watch : Bytes → WatchAnswer) (path : Bytes) (call : Nat)
    {outcome : Option (Bytes × Nat)} (returned : ipWatchParent watch path = some outcome) :
    ∃ rounds, (ipWatchParentRounds (fun _ => watch) rounds call path).2 = some outcome := by
  induction path using shorterAncestors.induct generalizing call with
  | case1 path none =>
    refine ⟨1, ?_⟩
    rw [ipWatchParent] at returned
    split at returned
    case h_1 => simpa [ipWatchParentRounds, none] using returned
    case h_2 parent cut => simp [none] at cut
  | case2 path stays =>
    refine ⟨1, ?_⟩
    rw [ipWatchParent] at returned
    split at returned
    case h_1 none => simp [stays] at none
    case h_2 parent cut =>
      obtain rfl := Option.some.inj (stays.symm.trans cut)
      cases answer : watch path with
      | watched inode => simpa [ipWatchParentRounds, stays, answer] using returned
      | failed => simpa [ipWatchParentRounds, stays, answer] using returned
      | noent => simp [answer] at returned
  | case3 path parent cut different inductionHypothesis =>
    rw [ipWatchParent] at returned
    split at returned
    case h_1 none => simp [cut] at none
    case h_2 other same =>
      obtain rfl := Option.some.inj (cut.symm.trans same)
      cases answer : watch parent with
      | watched inode => exact ⟨1, by simpa [ipWatchParentRounds, cut, answer] using returned⟩
      | failed => exact ⟨1, by simpa [ipWatchParentRounds, cut, answer] using returned⟩
      | noent =>
        simp only [answer, dif_neg different] at returned
        obtain ⟨rounds, found⟩ := inductionHypothesis (call + 1) returned
        exact ⟨rounds + 1, by simp [ipWatchParentRounds, cut, answer, found]⟩

/-- As long as nothing is there, the loop does not leave an absolute path. -/
theorem rounds_never {path : Bytes} (absolute : path.head? = some slash) (rounds call : Nat) :
    (ipWatchParentRounds (fun _ _ => .noent) rounds call path).2 = none := by
  induction rounds generalizing path call with
  | zero => rfl
  | succ rounds inductionHypothesis =>
    have separator : slash ∈ path := List.mem_of_mem_head? absolute
    obtain ⟨front, name, whole, _, cut⟩ := parentPath_split separator
    simp only [ipWatchParentRounds, cut]
    apply inductionHypothesis
    split
    case isTrue => exact absolute
    case isFalse nonempty => rwa [whole, List.head?_append_of_ne_nil _ nonempty] at absolute

/-- A top-level directory is missing: it is tried for ever. -/
theorem not_findsNearest :
    ¬ ∀ (answers : Nat → Bytes → WatchAnswer) (path : Bytes), FindsNearest answers path := by
  intro finds
  obtain ⟨rounds, returned⟩ := (finds (fun _ _ => .noent) [slash, 97]).returns
  rw [rounds_never rfl] at returned
  contradiction

end Gamin.Inotify
