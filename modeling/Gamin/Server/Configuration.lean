import Gamin.Library.Precedence
import Gamin.Server.Backends
import Mathlib.Algebra.Group.Int.Defs
import Mathlib.Algebra.Group.Nat.Defs

/-! # The configuration files

`gam_conf.c` reads the file of the system, the file of the user and the mandatory file of the
system in this order.  A `fsset` rule is written to the table of file system types, in which the
last one counts; a `poll` or `notify` pattern goes behind the others, of which the first one that
matches counts.
-/

namespace Gamin.Server

open Gamin Gamin.Library Gamin.Inotify

/-! ## Words -/

def space : UInt8 := 32
def newline : UInt8 := 10
def hash : UInt8 := 35
def tilde : UInt8 := 126

/-- `"fsset"`, `"poll"`, `"notify"` and `"kernel"`. -/
def fssetWord : Bytes := [102, 115, 115, 101, 116]
def pollWord : Bytes := [112, 111, 108, 108]
def notifyWord : Bytes := [110, 111, 116, 105, 102, 121]
def kernelWord : Bytes := [107, 101, 114, 110, 101, 108]

/-- `tolower` in the C locale. -/
def toLower (byte : UInt8) : UInt8 := if 65 ≤ byte ∧ byte ≤ 90 then byte + 32 else byte

/-- `strcasecmp` finds no difference. -/
def sameButCase (first second : Bytes) : Bool := first.map toLower = second.map toLower

/-- `gam_conf_string_to_mon_type`. -/
def gamConfStringToMonType (method : Bytes) : GamFsMonType :=
  if sameButCase method kernelWord then .kernel
  else if sameButCase method pollWord then .poll
  else .none

def isSpace (byte : UInt8) : Bool := byte = 32 ∨ 9 ≤ byte ∧ byte ≤ 13

def isDigit (byte : UInt8) : Bool := 48 ≤ byte ∧ byte ≤ 57

/-- `atoi`: `strtol` stops at the largest `long`, and the result is converted to an `int`. -/
def atoi (word : Bytes) : Int :=
  let word := word.dropWhile isSpace
  let negative : Bool := word.head? = some 45
  let digits := if negative ∨ word.head? = some 43 then word.drop 1 else word
  let value : Int := (digits.takeWhile isDigit).foldl (fun value digit => 10 * value + (digit.toNat - 48)) 0
  let value := max (-2 ^ 63) (min (2 ^ 63 - 1) (if negative then -value else value))
  value.bmod (2 ^ 32)

/-! ## Rules -/

/-- What has been read so far: the exclude list, and the table of file system types. -/
structure Configuration where
  excludes : List (Bytes × Bool)
  mounts : Mounts

/-- The name of a file system type, and what `gam_fs_set` is told about it. -/
abbrev FssetRule := Bytes × GamFsMonType × Int

/-- What a line says. -/
inductive ConfCommand where
  | fsset (rule : FssetRule)
  | patterns (exclude : Bool) (words : List Bytes)
  | nothing

/-- The words behind `fsset`: a name, a method and perhaps a poll timeout. -/
def fssetCommand : List Bytes → ConfCommand
  | fsname :: method :: rest =>
    if fsname = [] ∨ method = [] then .nothing
    else
      let pollTimeout := match rest with
        | [] | [] :: _ => -1
        | word :: _ => atoi word
      .fsset (fsname, gamConfStringToMonType method, pollTimeout)
  | _ => .nothing

/-- What `gam_conf_read_internal` makes of a line. -/
def confCommand (line : Bytes) : ConfCommand :=
  if line = [] ∨ line.head? = some hash then .nothing
  else
    match line.splitOn space with
    | [] => .nothing
    | command :: words =>
      if command = fssetWord then fssetCommand words
      else if command = pollWord then .patterns true words
      else if command = notifyWord then .patterns false words
      else .nothing

/-- The patterns among the words of a line, up to a comment; `~` stands for the home directory. -/
def patternWords (home : Bytes) : List Bytes → List Bytes
  | [] => []
  | [] :: words => patternWords home words
  | (byte :: rest) :: words =>
    if byte = hash then []
    else if byte = tilde then (home ++ rest) :: patternWords home words
    else if byte = slash then (byte :: rest) :: patternWords home words
    else patternWords home words

/-- `gam_exclude_add`. -/
def gamExcludeAdd (excludes : List (Bytes × Bool)) (pattern : Bytes) (exclude : Bool) :
    List (Bytes × Bool) :=
  excludes ++ [(pattern, exclude)]

/-- `gam_fs_set` with the call of `gam_fs_init` at its start.  The second look at the same table
changes nothing. -/
def gamFsSetRule (mounts : Mounts) (rule : FssetRule) : Mounts where
  state := gamFsSet (gamFsInit mounts.state (mounts.mtab 0)) (mounts.mtab 0) rule.1 rule.2.1 rule.2.2
  mtab call := mounts.mtab (call + 1)

def confLine (home : Bytes) (conf : Configuration) (line : Bytes) : Configuration :=
  match confCommand line with
  | .fsset rule => { conf with mounts := gamFsSetRule conf.mounts rule }
  | .patterns exclude words =>
    { conf with
      excludes := (patternWords home words).foldl (gamExcludeAdd · · exclude) conf.excludes }
  | .nothing => conf

/-- The lines of a file, up to a NUL byte. -/
def confLines (contents : Option Bytes) : List Bytes :=
  ((contents.map fun contents => (contents.takeWhile (· ≠ 0)).splitOn newline)).getD []

/-- `gam_conf_read_internal`.  There are no contents if the file cannot be read. -/
def gamConfReadInternal (home : Bytes) (conf : Configuration) (contents : Option Bytes) :
    Configuration :=
  (confLines contents).foldl (confLine home) conf

/-- The contents of `/etc/gamin/gaminrc`, `~/.gaminrc` and `/etc/gamin/mandatory_gaminrc`. -/
structure ConfFiles where
  globalconf : Option Bytes
  userconf : Option Bytes
  mandatory : Option Bytes

/-- `gam_conf_read`. -/
def gamConfRead (home : Bytes) (mounts : Mounts) (files : ConfFiles) : Configuration :=
  let conf : Configuration := { excludes := [], mounts := mounts }
  let conf := gamConfReadInternal home conf files.globalconf
  let conf := gamConfReadInternal home conf files.userconf
  gamConfReadInternal home conf files.mandatory

/-! ## The rules of a file -/

/-- The patterns of a file in their order, with whether they exclude. -/
def excludeRules (home : Bytes) (contents : Option Bytes) : List (Bytes × Bool) :=
  (confLines contents).flatMap fun line =>
    match confCommand line with
    | .patterns exclude words => (patternWords home words).map (·, exclude)
    | _ => []

/-- The `fsset` rules of a file in their order. -/
def fssetRules (contents : Option Bytes) : List FssetRule :=
  (confLines contents).filterMap fun line =>
    match confCommand line with
    | .fsset rule => some rule
    | _ => none

theorem foldl_gamExcludeAdd (patterns : List Bytes) (exclude : Bool) (excludes : List (Bytes × Bool)) :
    patterns.foldl (gamExcludeAdd · · exclude) excludes = excludes ++ patterns.map (·, exclude) := by
  induction patterns generalizing excludes with
  | nil => simp
  | cons pattern patterns inductionHypothesis =>
    rw [List.foldl_cons, inductionHypothesis, gamExcludeAdd, List.map_cons, List.append_assoc,
      List.singleton_append]

/-- A file is read as its two lists of rules. -/
theorem gamConfReadInternal_eq (home : Bytes) (conf : Configuration) (contents : Option Bytes) :
    gamConfReadInternal home conf contents =
      { excludes := conf.excludes ++ excludeRules home contents
        mounts := (fssetRules contents).foldl gamFsSetRule conf.mounts } := by
  unfold gamConfReadInternal excludeRules fssetRules
  induction confLines contents generalizing conf with
  | nil => simp
  | cons line lines inductionHypothesis =>
    rw [List.foldl_cons, inductionHypothesis, List.flatMap_cons, List.filterMap_cons, confLine]
    cases confCommand line with
    | fsset rule => simp
    | patterns exclude words => simp [foldl_gamExcludeAdd]
    | nothing => simp

theorem gamConfRead_excludes (home : Bytes) (mounts : Mounts) (files : ConfFiles) :
    (gamConfRead home mounts files).excludes =
      (excludeRules home files.globalconf ++ excludeRules home files.userconf) ++
        excludeRules home files.mandatory := by
  simp only [gamConfRead, gamConfReadInternal_eq, List.nil_append]

theorem gamConfRead_mounts (home : Bytes) (mounts : Mounts) (files : ConfFiles) :
    ∃ earlier, (gamConfRead home mounts files).mounts =
      (fssetRules files.mandatory).foldl gamFsSetRule earlier :=
  ⟨_, by simp only [gamConfRead, gamConfReadInternal_eq]; rfl⟩

/-! ## The table of file system types -/

/-- What the table says of a file system type. -/
def typeOf (fsProps : List GamFsProperties) (fsname : Bytes) : Option GamFsMonType :=
  (fsProps.find? (·.fsname = fsname)).map (·.monType)

theorem gamFsScanMtab_keeps (state : FsState) (mtab : MtabView) :
    (gamFsScanMtab state mtab).fsProps = state.fsProps ∧
      (gamFsScanMtab state mtab).initialized = state.initialized := by
  unfold gamFsScanMtab
  split <;> exact ⟨rfl, rfl⟩

theorem gamFsRefresh_keeps (state : FsState) (mtab : MtabView) :
    (gamFsRefresh state mtab).fsProps = state.fsProps ∧
      (gamFsRefresh state mtab).initialized = state.initialized := by
  simp only [gamFsRefresh]
  split
  · exact gamFsScanMtab_keeps state mtab
  · exact ⟨rfl, rfl⟩

theorem gamFsSet_initialized (state : FsState) (mtab : MtabView) (fsname : Bytes) (type : GamFsMonType)
    (pollTimeout : Int) :
    (gamFsSet state mtab fsname type pollTimeout).initialized = state.initialized := by
  simp only [gamFsSet]
  split <;> exact (gamFsRefresh_keeps state mtab).2

theorem gamFsInit_initialized (state : FsState) (mtab : MtabView) :
    (gamFsInit state mtab).initialized = true := by
  unfold gamFsInit
  split
  case isTrue already => rw [(gamFsRefresh_keeps state mtab).2, already]
  case isFalse =>
    rw [(gamFsScanMtab_keeps _ mtab).2]
    simp only [initialProperties, List.foldl_cons, List.foldl_nil, gamFsSet_initialized]

/-- Writing a rule is seen for its own type, and for no other. -/
theorem gamFsSet_typeOf (state : FsState) (mtab : MtabView) (fsname : Bytes) (type : GamFsMonType)
    (pollTimeout : Int) (other : Bytes) :
    typeOf (gamFsSet state mtab fsname type pollTimeout).fsProps other =
      if other = fsname then some type else typeOf state.fsProps other := by
  have props := (gamFsRefresh_keeps state mtab).1
  simp only [gamFsSet, props]
  split
  case isTrue known =>
    obtain ⟨prop, member, named⟩ := List.any_eq_true.mp known
    simp only [typeOf, List.find?_map, Option.map_map]
    -- the names are as before
    have sameNames : ((fun prop : GamFsProperties => decide (prop.fsname = other)) ∘
        fun prop => if prop.fsname = fsname then
          { prop with
            monType := type
            pollTimeout := if pollTimeout ≥ 0 then pollTimeout.toNat else prop.pollTimeout }
        else prop) = fun prop => decide (prop.fsname = other) := by
      funext prop
      simp only [Function.comp_apply]
      split <;> rfl
    rw [sameNames]
    cases found : state.fsProps.find? (·.fsname = other) with
    | none =>
      have absent := List.find?_eq_none.mp found prop member
      have different : other ≠ fsname := by
        rintro rfl
        exact absent named
      simp [different]
    | some entry =>
      have entryName : entry.fsname = other := by simpa using List.find?_some found
      by_cases same : other = fsname
      · simp [same, entryName.trans same]
      · simp [same, entryName]
  case isFalse unknown =>
    simp only [typeOf, List.find?_cons]
    by_cases same : other = fsname
    · simp [same]
    · simp [same, Ne.symm same]

/-- The type of a file system once the table has been made. -/
def knownType (fsname : Bytes) (mounts : Mounts) : Option GamFsMonType :=
  if mounts.state.initialized then typeOf mounts.state.fsProps fsname else none

theorem gamFsSetRule_knownType (mounts : Mounts) (rule : FssetRule) :
    knownType rule.1 (gamFsSetRule mounts rule) = some rule.2.1 := by
  simp [knownType, gamFsSetRule, gamFsSet_initialized, gamFsInit_initialized, gamFsSet_typeOf]

theorem gamFsSetRule_otherType (mounts : Mounts) {rule : FssetRule} {fsname : Bytes}
    (different : rule.1 ≠ fsname) {type : GamFsMonType} (known : knownType fsname mounts = some type) :
    knownType fsname (gamFsSetRule mounts rule) = some type := by
  unfold knownType at known
  split at known
  case isTrue already =>
    simp only [knownType, gamFsSetRule, gamFsSet_initialized, gamFsInit_initialized, if_true,
      gamFsSet_typeOf, if_neg different.symm]
    rw [gamFsInit, if_pos already, (gamFsRefresh_keeps ..).1, known]
  case isFalse => contradiction

/-- The last `fsset` rule of the mandatory file for a type is in the table. -/
theorem gamConfRead_knownType {home : Bytes} {mounts : Mounts} {files : ConfFiles} {fsname : Bytes}
    {rule : GamFsMonType × Int} (last : lastWrite fsname (fssetRules files.mandatory) = some rule) :
    knownType fsname (gamConfRead home mounts files).mounts = some rule.1 := by
  obtain ⟨earlier, written⟩ := gamConfRead_mounts home mounts files
  rw [written]
  refine @foldl_lastWrite _ _ _ _ _ (knownType fsname) gamFsSetRule Prod.fst fsname
    (fun mounts value => gamFsSetRule_knownType mounts (fsname, value))
    (fun mounts _ _ different => gamFsSetRule_otherType mounts different) _ _ _ ?_
  rw [last]
  rfl

/-! ## Who wins -/

section

variable (gPatternMatch : Bytes → Bytes → Bool)

/-- The verdict of the first pattern that matches a path. -/
def patternVerdict (rules : List (Bytes × Bool)) (path : Bytes) : Option Bool :=
  firstVerdict (fun rule => gPatternMatch rule.1 path) Prod.snd rules

/-- The method that `gam_fs_get_mon_type` gives for every path on a file system of a type, as long
as the table is as the files have left it. -/
def MethodOf (conf : Configuration) (fsname : Bytes) (type : GamFsMonType) : Prop :=
  ∀ (later : Mounts) (path : Bytes) (fs : GamFs),
    later.state.fsProps = conf.mounts.state.fsProps → later.state.initialized = true →
      gamFsFindFs later.init.init.state path = some fs → fs.fsname = fsname →
      (gamFsGetMonType later path).2 = type

/-- What the mandatory file says of a path and of a type of file systems is what counts. -/
def AdministratorWins (build : Build) (home : Bytes) (mounts : Mounts) (files : ConfFiles)
    (path : Bytes) : Prop :=
  let conf := gamConfRead home mounts files
  (∀ verdict, patternVerdict gPatternMatch (excludeRules home files.mandatory) path = some verdict →
    gamExcludeCheck gPatternMatch (gamExcludeInit build conf.excludes) path = verdict) ∧
  ∀ fsname rule, lastWrite fsname (fssetRules files.mandatory) = some rule →
    MethodOf conf fsname rule.1

theorem Mounts.init_fsProps {mounts : Mounts} (initialized : mounts.state.initialized = true) :
    mounts.init.state.fsProps = mounts.state.fsProps ∧ mounts.init.state.initialized = true := by
  have kept := gamFsRefresh_keeps mounts.state (mounts.mtab 0)
  simp only [Mounts.init, gamFsInit, if_pos initialized]
  exact ⟨kept.1, kept.2.trans initialized⟩

theorem methodOf_knownType {conf : Configuration} {fsname : Bytes} {type : GamFsMonType}
    (known : knownType fsname conf.mounts = some type) : MethodOf conf fsname type := by
  intro later path fs sameProps initialized found named
  unfold knownType at known
  split at known
  case isFalse => contradiction
  case isTrue =>
    have first := Mounts.init_fsProps initialized
    have second := Mounts.init_fsProps first.2
    obtain ⟨props, entry, rfl⟩ := Option.map_eq_some_iff.mp known
    simp only [gamFsGetMonType, gamFsFindFsProps, found, Option.bind_some, second.1, first.1,
      sameProps, named, entry]

/-- The built-in patterns come behind a pattern that matches. -/
theorem gamExcludeCheck_configured (build : Build) {configured : List (Bytes × Bool)} {path : Bytes}
    {result : Bool} (decided : patternVerdict gPatternMatch configured path = some result) :
    gamExcludeCheck gPatternMatch (gamExcludeInit build configured) path = result := by
  have all : patternVerdict gPatternMatch (gamExcludeInit build configured) path = some result := by
    rw [gamExcludeInit, patternVerdict, firstVerdict_append, ← patternVerdict, decided, Option.some_or]
  exact congrArg (Option.getD · false) all

/-- The mandatory file always has its way with types of file systems.  It has its way with a path
exactly when the first pattern of the other two files that matches, if there is one, says the
same. -/
theorem administratorWins_iff (build : Build) (home : Bytes) (mounts : Mounts) (files : ConfFiles)
    (path : Bytes) :
    AdministratorWins gPatternMatch build home mounts files path ↔
      ∀ verdict,
        patternVerdict gPatternMatch (excludeRules home files.mandatory) path = some verdict →
        ∀ earlier, patternVerdict gPatternMatch
            (excludeRules home files.globalconf ++ excludeRules home files.userconf) path = some earlier →
          earlier = verdict := by
  have types : ∀ fsname rule, lastWrite fsname (fssetRules files.mandatory) = some rule →
      MethodOf (gamConfRead home mounts files) fsname rule.1 :=
    fun fsname rule last => methodOf_knownType (gamConfRead_knownType last)
  unfold AdministratorWins
  rw [and_iff_left types]
  refine forall₂_congr fun verdict found => ?_
  have counts := @firstVerdict_append_eq_iff _ _ (fun rule => gPatternMatch rule.1 path) Prod.snd
    (excludeRules home files.globalconf ++ excludeRules home files.userconf) _ verdict found
  have decided : ∃ result,
      patternVerdict gPatternMatch (gamConfRead home mounts files).excludes path = some result := by
    rw [gamConfRead_excludes, patternVerdict, firstVerdict_append]
    cases firstVerdict (fun rule => gPatternMatch rule.1 path) Prod.snd
        (excludeRules home files.globalconf ++ excludeRules home files.userconf) with
    | none => exact ⟨verdict, found⟩
    | some earlier => exact ⟨earlier, rfl⟩
  obtain ⟨result, decided⟩ := decided
  rw [gamExcludeCheck_configured gPatternMatch build decided, ← Option.some_inj, ← decided,
    gamConfRead_excludes]
  exact counts

/-- The user wants kernel notification on `/mnt/*`, the administrator wants polling. -/
theorem user_overrides_mandatory :
    ¬ AdministratorWins (fun pattern filename => pattern.dropLast.isPrefixOf filename)
      { inotify := true, dnotify := false, kqueue := false, linux := true } [47, 104]
      { state :=
          { defaultType := .kernel, initialized := false, filesystems := [], fsProps := [], mtabMtime := 0 }
        mtab := fun _ => { mtime := 0, contents := none } }
      { globalconf := none
        userconf := some (notifyWord ++ [32, 47, 109, 110, 116, 47, 42])
        mandatory := some (pollWord ++ [32, 47, 109, 110, 116, 47, 42]) }
      [47, 109, 110, 116, 47, 97] := by
  intro wins
  have checked := wins.1 true (by decide +kernel)
  revert checked
  decide +kernel

end

end Gamin.Server
