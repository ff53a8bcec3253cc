import Gamin.Server.Configuration

/-! # Blanks and comments in the configuration files

The words of a line are what stands between two single blanks.  Behind `poll` and `notify` the
empty words between neighbouring blanks are passed over and a word that begins with `#` ends the
line; behind `fsset` each word counts by its place.  An edit of the blanks or of the comment of a
line is harmless there as long as it leaves the first three places alone.
-/

namespace Gamin.Server

open Gamin Gamin.Library Gamin.Inotify

/-! ## Reading with the variable `exclude` -/

/-- The variables of `gam_conf_read_internal` that live as long as the file is read. -/
structure ConfReader where
  exclude : Bool
  conf : Configuration

/-- One turn of the loop over the lines. -/
def ConfReader.readLine (home : Bytes) (reader : ConfReader) (line : Bytes) : ConfReader :=
  match confCommand line with
  | .fsset rule =>
    { reader with conf := { reader.conf with mounts := gamFsSetRule reader.conf.mounts rule } }
  | .patterns exclude words =>
    let reader := { reader with exclude := exclude }
    { reader with
      conf := { reader.conf with
        excludes := (patternWords home words).foldl (gamExcludeAdd · · reader.exclude)
          reader.conf.excludes } }
  | .nothing => reader

/-- `gam_conf_read_internal` with `exclude`, which outlives the lines. -/
def gamConfReadLoop (home : Bytes) (conf : Configuration) (contents : Option Bytes) : Configuration :=
  ((confLines contents).foldl (ConfReader.readLine home) { exclude := true, conf := conf }).conf

theorem ConfReader.readLine_conf (home : Bytes) (reader : ConfReader) (line : Bytes) :
    (reader.readLine home line).conf = confLine home reader.conf line := by
  unfold ConfReader.readLine confLine
  cases confCommand line <;> rfl

/-- A line that uses `exclude` sets it first, so nothing of the earlier lines is left in it. -/
theorem gamConfReadLoop_eq (home : Bytes) (conf : Configuration) (contents : Option Bytes) :
    gamConfReadLoop home conf contents = gamConfReadInternal home conf contents := by
  have fold : ∀ (lines : List Bytes) (reader : ConfReader),
      (lines.foldl (ConfReader.readLine home) reader).conf =
        lines.foldl (confLine home) reader.conf := by
    intro lines
    induction lines with
    | nil => exact fun reader => rfl
    | cons line lines inductionHypothesis =>
      intro reader
      rw [List.foldl_cons, inductionHypothesis, ConfReader.readLine_conf, List.foldl_cons]
  exact fold _ _

/-! ## Lines of a file -/

/-- Text without a line feed and without a NUL byte. -/
def OneLine (text : Bytes) : Prop := newline ∉ text ∧ (0 : UInt8) ∉ text

instance (text : Bytes) : Decidable (OneLine text) := inferInstanceAs (Decidable (_ ∧ _))

/-- The contents of the file that has the given lines. -/
def fileOf (lines : List Bytes) : Bytes := [newline].intercalate lines

theorem zero_notMem_fileOf {lines : List Bytes} (each : ∀ line ∈ lines, OneLine line) :
    (0 : UInt8) ∉ fileOf lines := by
  induction lines with
  | nil => simp [fileOf]
  | cons line lines inductionHypothesis =>
    have rest := inductionHypothesis fun other member => each other (List.mem_cons_of_mem line member)
    have first := (each line List.mem_cons_self).2
    cases lines with
    | nil => simpa [fileOf] using first
    | cons next lines =>
      have separated : fileOf (line :: next :: lines) = line ++ newline :: fileOf (next :: lines) := by
        simp [fileOf, List.intercalate_cons_cons]
      simp only [separated, List.mem_append, List.mem_cons, not_or]
      exact ⟨first, by decide, rest⟩

theorem confLines_fileOf {lines : List Bytes} (each : ∀ line ∈ lines, OneLine line)
    (nonempty : lines ≠ []) : confLines (some (fileOf lines)) = lines := by
  have whole : (fileOf lines).takeWhile (· ≠ 0) = fileOf lines := by
    refine List.takeWhile_eq_self_iff.mpr fun byte member => ?_
    have different : byte ≠ 0 := fun zero => zero_notMem_fileOf each (zero ▸ member)
    simpa using different
  simp only [confLines, Option.map_some, Option.getD_some, whole]
  exact List.splitOn_intercalate newline (fun line member => (each line member).1) nonempty

theorem confLines_single {line : Bytes} (oneLine : OneLine line) : confLines (some line) = [line] := by
  have single := @confLines_fileOf [line] (by simpa using oneLine) (List.cons_ne_nil _ _)
  simpa only [fileOf, List.intercalate_singleton] using single

theorem mem_splitOn_newline {text line : Bytes} (member : line ∈ text.splitOn newline) :
    newline ∉ line ∧ line ⊆ text := by
  induction text generalizing line with
  | nil =>
    rw [List.splitOn_nil, List.mem_singleton] at member
    exact ⟨by simp [member], by simp [member]⟩
  | cons byte text inductionHypothesis =>
    rw [List.splitOn_cons_eq_if_modifyHead] at member
    cases pieces : text.splitOn newline with
    | nil => exact absurd pieces (List.splitOn_ne_nil _ _)
    | cons first others =>
      rw [pieces] at member inductionHypothesis
      split at member
      case isTrue =>
        cases List.mem_cons.mp member with
        | inl empty => simp [empty]
        | inr later =>
          have known := inductionHypothesis later
          exact ⟨known.1, fun other here => List.mem_cons_of_mem byte (known.2 here)⟩
      case isFalse different =>
        rw [List.modifyHead_cons] at member
        cases List.mem_cons.mp member with
        | inl extended =>
          have known := inductionHypothesis List.mem_cons_self
          have otherByte : newline ≠ byte := fun same => different (by simp [same])
          rw [extended]
          exact ⟨List.not_mem_cons_of_ne_of_not_mem otherByte known.1, List.cons_subset_cons byte known.2⟩
        | inr later =>
          have known := inductionHypothesis (List.mem_cons_of_mem first later)
          exact ⟨known.1, fun other here => List.mem_cons_of_mem byte (known.2 here)⟩

theorem oneLine_of_mem_confLines {contents : Option Bytes} {line : Bytes}
    (member : line ∈ confLines contents) : OneLine line := by
  cases contents with
  | none => simp [confLines] at member
  | some contents =>
    have known := mem_splitOn_newline member
    refine ⟨known.1, fun zero => ?_⟩
    have taken := List.mem_takeWhile_imp (known.2 zero)
    simp at taken

/-- A file does what its lines do, each in a file of its own, one after the other. -/
theorem gamConfReadLoop_lines (home : Bytes) (conf : Configuration) (contents : Option Bytes) :
    gamConfReadLoop home conf contents =
      (confLines contents).foldl (fun conf line => gamConfReadLoop home conf (some line)) conf := by
  rw [gamConfReadLoop_eq, gamConfReadInternal]
  have each : ∀ line ∈ confLines contents, OneLine line := fun line => oneLine_of_mem_confLines
  generalize confLines contents = lines at each
  induction lines generalizing conf with
  | nil => rfl
  | cons line lines inductionHypothesis =>
    have single : gamConfReadLoop home conf (some line) = confLine home conf line := by
      rw [gamConfReadLoop_eq, gamConfReadInternal, confLines_single (each line List.mem_cons_self)]
      rfl
    rw [List.foldl_cons, List.foldl_cons, single]
    exact inductionHypothesis _ fun other member => each other (List.mem_cons_of_mem line member)

/-! ## Edits of blanks and comments -/

/-- An edit of a line: a blank becomes several, blanks are put at the end, or a blank and a word
that begins with `#` and goes on with any text. -/
inductive Edit where
  | widen (front back : Bytes) (more : Nat)
  | pad (line : Bytes) (blanks : Nat)
  | comment (line text : Bytes)

def Edit.line : Edit → Bytes
  | .widen front back _ => front ++ space :: back
  | .pad line _ => line
  | .comment line _ => line

def Edit.edited : Edit → Bytes
  | .widen front back more => front ++ space :: (List.replicate (more + 1) space ++ back)
  | .pad line blanks => line ++ List.replicate blanks space
  | .comment line text => line ++ space :: hash :: text

/-- The first word of a line, and the words behind it. -/
def firstWord (line : Bytes) : Bytes := (line.splitOn space).headD []
def wordsBehind (line : Bytes) : List Bytes := (line.splitOn space).tail

/-- A `fsset` rule without a name or without a method. -/
def Incomplete (words : List Bytes) : Prop := words.length < 2 ∨ [] ∈ words.take 2

/-- The word in the place of the poll timeout asks for the default. -/
def AsksForDefault (words : List Bytes) : Prop := words.getD 2 [] = [] ∨ atoi (words.getD 2 []) < 0

/-- An edit of a `fsset` line that leaves its first three places alone, or a line that stays without
a rule. -/
def Edit.Harmless : Edit → Prop
  | .widen front back more =>
    Incomplete (wordsBehind (Edit.widen front back more).line) ∨ 3 ≤ (wordsBehind front).length ∨
      (wordsBehind front).length = 2 ∧ AsksForDefault (wordsBehind (Edit.widen front back more).line)
  | .pad _ _ => True
  | .comment line text =>
    3 ≤ (wordsBehind line).length ∨ [] ∈ wordsBehind line ∨
      wordsBehind line = [] ∧ (wordsBehind text).headD [] = []

theorem splitOn_blanks (count : Nat) (back : Bytes) :
    (List.replicate count space ++ back).splitOn space =
      List.replicate count [] ++ back.splitOn space := by
  induction count with
  | zero => rfl
  | succ count inductionHypothesis =>
    have separated := List.splitOn_append_cons_self (a := space) [] (List.replicate count space ++ back)
    rw [List.replicate_succ, List.replicate_succ, List.cons_append, List.cons_append,
      ← inductionHypothesis]
    simpa using separated

theorem Edit.edited_widen (front back : Bytes) (more : Nat) :
    (Edit.widen front back more).edited.splitOn space =
      front.splitOn space ++ (List.replicate (more + 1) [] ++ back.splitOn space) := by
  rw [Edit.edited, List.splitOn_append_cons_self, splitOn_blanks]

theorem Edit.edited_pad (line : Bytes) (blanks : Nat) :
    (Edit.pad line blanks).edited.splitOn space = line.splitOn space ++ List.replicate blanks [] := by
  rw [Edit.edited]
  cases blanks with
  | zero => simp
  | succ blanks =>
    have behind := splitOn_blanks blanks []
    rw [List.append_nil, List.splitOn_nil, ← List.replicate_succ'] at behind
    rw [List.replicate_succ, List.splitOn_append_cons_self, behind]

theorem Edit.edited_comment (line text : Bytes) :
    (Edit.comment line text).edited.splitOn space =
      line.splitOn space ++ (hash :: firstWord text) :: wordsBehind text := by
  rw [Edit.edited, List.splitOn_append_cons_self, List.splitOn_cons_eq_if_modifyHead]
  unfold firstWord wordsBehind
  cases pieces : text.splitOn space with
  | nil => exact absurd pieces (List.splitOn_ne_nil _ _)
  | cons first others => simp [hash, space]

/-! ## What a line says -/

/-- The words that make a line a rule. -/
def Keyword (word : Bytes) : Prop := word = fssetWord ∨ word = pollWord ∨ word = notifyWord

theorem confCommand_words {line keyword : Bytes} {words : List Bytes}
    (split : line.splitOn space = keyword :: words) (known : Keyword keyword) :
    confCommand line =
      if keyword = fssetWord then fssetCommand words
      else .patterns (decide (keyword = pollWord)) words := by
  have begins : keyword <+: line := by
    have joined : [space].intercalate (line.splitOn space) = line := List.intercalate_splitOn space
    rw [split] at joined
    rw [← joined]
    cases words with
    | nil => simp
    | cons word words => simp [List.intercalate_cons_cons]
  have shown : ¬ (line = [] ∨ line.head? = some hash) := by
    obtain ⟨rest, rfl⟩ := begins
    obtain rfl | rfl | rfl := known <;> simp [fssetWord, pollWord, notifyWord, hash]
  rw [confCommand, if_neg shown, split]
  obtain rfl | rfl | rfl := known <;> simp [fssetWord, pollWord, notifyWord]

theorem patternWords_blanks (home : Bytes) (count : Nat) (words later : List Bytes) :
    patternWords home (words ++ (List.replicate count [] ++ later)) = patternWords home (words ++ later) := by
  induction words with
  | nil =>
    induction count with
    | zero => rfl
    | succ count inductionHypothesis => simpa [List.replicate_succ, patternWords] using inductionHypothesis
  | cons word words inductionHypothesis =>
    cases word with
    | nil => simpa [patternWords] using inductionHypothesis
    | cons byte rest => simp only [List.cons_append, patternWords, inductionHypothesis]

theorem patternWords_comment (home : Bytes) (rest : Bytes) (words later : List Bytes) :
    patternWords home (words ++ (hash :: rest) :: later) = patternWords home words := by
  induction words with
  | nil => simp [patternWords]
  | cons word words inductionHypothesis =>
    cases word with
    | nil => simpa [patternWords] using inductionHypothesis
    | cons byte rest => simp only [List.cons_append, patternWords, inductionHypothesis]

/-- The poll timeout of a rule; `-1` asks for the default. -/
def timeoutOf (words : List Bytes) : Int :=
  if words.getD 2 [] = [] then -1 else atoi (words.getD 2 [])

theorem fssetCommand_incomplete {words : List Bytes} (incomplete : Incomplete words) :
    fssetCommand words = .nothing := by
  match words with
  | [] | [_] => rfl
  | fsname :: method :: rest =>
    have empty : fsname = [] ∨ method = [] := by
      cases incomplete with
      | inl short => simp only [List.length_cons] at short; omega
      | inr missing => simpa [eq_comm] using missing
    simp only [fssetCommand, if_pos empty]

theorem fssetCommand_complete {words : List Bytes} (complete : ¬ Incomplete words) :
    fssetCommand words =
      .fsset (words.getD 0 [], gamConfStringToMonType (words.getD 1 []), timeoutOf words) := by
  match words with
  | [] | [_] => exact absurd (.inl (by simp)) complete
  | fsname :: method :: rest =>
    have given : ¬ (fsname = [] ∨ method = []) := fun empty =>
      complete (.inr (by simpa [eq_comm] using empty))
    simp only [fssetCommand, if_neg given]
    match rest with
    | [] | [] :: _ | (_ :: _) :: _ => rfl

@[simp] theorem incomplete_short (words : List Bytes) (short : words.length < 2) : Incomplete words :=
  .inl short

@[simp] theorem incomplete_cons_cons (fsname method : Bytes) (rest : List Bytes) :
    Incomplete (fsname :: method :: rest) ↔ fsname = [] ∨ method = [] := by
  have long : ¬ (fsname :: method :: rest).length < 2 := by
    simp only [List.length_cons]
    omega
  simp only [Incomplete, long, false_or, List.take_succ_cons, List.take_zero, List.mem_cons,
    List.not_mem_nil, or_false, @eq_comm _ ([] : Bytes)]

@[simp] theorem timeoutOf_cons_cons (fsname method : Bytes) (rest : List Bytes) :
    timeoutOf (fsname :: method :: rest) = if rest.headD [] = [] then -1 else atoi (rest.headD []) := by
  cases rest <;> rfl

theorem atoi_comment (rest : Bytes) : atoi (hash :: rest) = 0 := rfl

@[simp] theorem asksForDefault_cons_cons (fsname method : Bytes) (rest : List Bytes) :
    AsksForDefault (fsname :: method :: rest) ↔ timeoutOf (fsname :: method :: rest) < 0 := by
  unfold AsksForDefault timeoutOf
  split <;> simp_all

/-- Both lines say the same to `gam_fs_set`. -/
def SameRule (first second : List Bytes) : Prop :=
  (Incomplete first ↔ Incomplete second) ∧
    (¬ Incomplete first →
      timeoutOf first = timeoutOf second ∨ timeoutOf first < 0 ∧ timeoutOf second < 0)

/-! ## What is seen of a line -/

/-- The exclude list and the table of file system types are the same. -/
def SameTables (first second : Configuration) : Prop :=
  first.excludes = second.excludes ∧ first.mounts.state.fsProps = second.mounts.state.fsProps

/-- In every file, behind whatever has been read before, one line has the effect of the other. -/
def ReadAlike (line edited : Bytes) : Prop :=
  ∀ (home : Bytes) (conf : Configuration) (before after : List Bytes),
    (∀ other ∈ before ++ after, OneLine other) →
      SameTables (gamConfReadLoop home conf (some (fileOf (before ++ line :: after))))
        (gamConfReadLoop home conf (some (fileOf (before ++ edited :: after))))

theorem gamConfReadLoop_fileOf (home : Bytes) (conf : Configuration) {lines : List Bytes}
    (each : ∀ line ∈ lines, OneLine line) (nonempty : lines ≠ []) :
    gamConfReadLoop home conf (some (fileOf lines)) = lines.foldl (confLine home) conf := by
  rw [gamConfReadLoop_eq, gamConfReadInternal, confLines_fileOf each nonempty]

section

variable {line edited : Bytes} (lineOne : OneLine line) (editedOne : OneLine edited)

include lineOne editedOne

theorem readAlike_of_confLine
    (same : ∀ home conf, confLine home conf line = confLine home conf edited) :
    ReadAlike line edited := by
  intro home conf before after others
  have each : ∀ {here}, OneLine here → ∀ other ∈ before ++ here :: after, OneLine other := by
    intro here one other member
    simp only [List.mem_append, List.mem_cons] at member others
    obtain earlier | rfl | later := member
    · exact others other (.inl earlier)
    · exact one
    · exact others other (.inr later)
  rw [gamConfReadLoop_fileOf home conf (each lineOne) (by simp),
    gamConfReadLoop_fileOf home conf (each editedOne) (by simp), List.foldl_append, List.foldl_append,
    List.foldl_cons, List.foldl_cons, same]
  exact ⟨rfl, rfl⟩

theorem ReadAlike.confLine (alike : ReadAlike line edited) (home : Bytes) (conf : Configuration) :
    SameTables (confLine home conf line) (confLine home conf edited) := by
  have single := alike home conf [] [] (by simp)
  rwa [gamConfReadLoop_fileOf home conf (by simpa using lineOne) (by simp),
    gamConfReadLoop_fileOf home conf (by simpa using editedOne) (by simp)] at single

end

/-- A table that has been made and holds the given types. -/
def mountsWith (fsProps : List GamFsProperties) : Mounts where
  state :=
    { defaultType := .kernel, initialized := true, filesystems := [], fsProps := fsProps, mtabMtime := 0 }
  mtab := fun _ => { mtime := 0, contents := none }

theorem gamFsSetRule_known (prop : GamFsProperties) (type : GamFsMonType) (pollTimeout : Int) :
    (gamFsSetRule (mountsWith [prop]) (prop.fsname, type, pollTimeout)).state.fsProps =
      [{ prop with
        monType := type
        pollTimeout := if pollTimeout ≥ 0 then pollTimeout.toNat else prop.pollTimeout }] := by
  simp [gamFsSetRule, gamFsSet, gamFsInit, gamFsRefresh, mountsWith]

theorem gamFsSetRule_new (rule : FssetRule) :
    (gamFsSetRule (mountsWith []) rule).state.fsProps ≠ [] := by
  simp [gamFsSetRule, gamFsSet, gamFsInit, gamFsRefresh, mountsWith]

/-- A timeout below zero is no timeout. -/
theorem gamFsSetRule_default (mounts : Mounts) (fsname : Bytes) (type : GamFsMonType) {first second : Int}
    (same : first = second ∨ first < 0 ∧ second < 0) :
    gamFsSetRule mounts (fsname, type, first) = gamFsSetRule mounts (fsname, type, second) := by
  obtain rfl | ⟨firstNone, secondNone⟩ := same
  · rfl
  · have firstGiven : ¬ first ≥ 0 := by omega
    have secondGiven : ¬ second ≥ 0 := by omega
    simp only [gamFsSetRule, gamFsSet, if_neg firstGiven, if_neg secondGiven]

/-- Two timeouts that are not the same for the table leave different ones for some type. -/
theorem gamFsSetRule_differs (fsname : Bytes) (type : GamFsMonType) {first second : Int}
    (different : ¬ (first = second ∨ first < 0 ∧ second < 0)) :
    ∃ mounts, (gamFsSetRule mounts (fsname, type, first)).state.fsProps ≠
      (gamFsSetRule mounts (fsname, type, second)).state.fsProps := by
  refine ⟨mountsWith [{ fsname := fsname, monType := type, pollTimeout := (max first second).toNat + 1 }],
    fun same => different ?_⟩
  have left := gamFsSetRule_known
    { fsname := fsname, monType := type, pollTimeout := (max first second).toNat + 1 } type first
  have right := gamFsSetRule_known
    { fsname := fsname, monType := type, pollTimeout := (max first second).toNat + 1 } type second
  rw [left, right, List.cons.injEq, GamFsProperties.mk.injEq] at same
  have timeouts : (if first ≥ 0 then first.toNat else (max first second).toNat + 1) =
    if second ≥ 0 then second.toNat else (max first second).toNat + 1 := same.1.2.2
  split_ifs at timeouts <;> omega

/-! ## The edits that change nothing -/

theorem readAlike_iff_sameRule {line edited : Bytes} (lineOne : OneLine line) (editedOne : OneLine edited)
    {words editedWords : List Bytes} (split : line.splitOn space = fssetWord :: words)
    (editedSplit : edited.splitOn space = fssetWord :: editedWords)
    (names : ¬ Incomplete words → ¬ Incomplete editedWords →
      words.getD 0 [] = editedWords.getD 0 [] ∧ words.getD 1 [] = editedWords.getD 1 []) :
    ReadAlike line edited ↔ SameRule words editedWords := by
  have command := confCommand_words split (.inl rfl)
  have editedCommand := confCommand_words editedSplit (.inl rfl)
  rw [if_pos rfl] at command editedCommand
  -- a line without a rule is not one with a rule
  have missing : ∀ {rule}, fssetCommand words = .nothing → fssetCommand editedWords = .fsset rule →
      ¬ ReadAlike line edited := by
    intro rule none some alike
    have seen := (alike.confLine lineOne editedOne [] { excludes := [], mounts := mountsWith [] }).2
    simp only [confLine, command, editedCommand, none, some] at seen
    exact gamFsSetRule_new rule seen.symm
  have superfluous : ∀ {rule}, fssetCommand words = .fsset rule → fssetCommand editedWords = .nothing →
      ¬ ReadAlike line edited := by
    intro rule some none alike
    have seen := (alike.confLine lineOne editedOne [] { excludes := [], mounts := mountsWith [] }).2
    simp only [confLine, command, editedCommand, none, some] at seen
    exact gamFsSetRule_new rule seen
  by_cases incomplete : Incomplete words <;> by_cases editedIncomplete : Incomplete editedWords
  · have same : ReadAlike line edited := readAlike_of_confLine lineOne editedOne fun home conf => by
      simp only [confLine, command, editedCommand, fssetCommand_incomplete incomplete,
        fssetCommand_incomplete editedIncomplete]
    simp [same, SameRule, incomplete, editedIncomplete]
  · have different := missing (fssetCommand_incomplete incomplete) (fssetCommand_complete editedIncomplete)
    simp [different, SameRule, incomplete, editedIncomplete]
  · have different := superfluous (fssetCommand_complete incomplete)
      (fssetCommand_incomplete editedIncomplete)
    simp [different, SameRule, incomplete, editedIncomplete]
  · have sameNames := names incomplete editedIncomplete
    have rule := fssetCommand_complete incomplete
    have editedRule := fssetCommand_complete editedIncomplete
    rw [← sameNames.1, ← sameNames.2] at editedRule
    have timeouts : SameRule words editedWords ↔ timeoutOf words = timeoutOf editedWords ∨
        timeoutOf words < 0 ∧ timeoutOf editedWords < 0 := by
      simp [SameRule, incomplete, editedIncomplete]
    rw [timeouts]
    constructor
    · intro alike
      by_contra different
      obtain ⟨mounts, visible⟩ := gamFsSetRule_differs (words.getD 0 [])
        (gamConfStringToMonType (words.getD 1 [])) different
      have seen := (alike.confLine lineOne editedOne [] { excludes := [], mounts := mounts }).2
      simp only [confLine, command, editedCommand, rule, editedRule] at seen
      exact visible seen
    · intro same
      refine readAlike_of_confLine lineOne editedOne fun home conf => ?_
      simp only [confLine, command, editedCommand, rule, editedRule]
      rw [gamFsSetRule_default conf.mounts _ _ same]

theorem sameRule_incomplete_right {first second : List Bytes} (incomplete : Incomplete second) :
    SameRule first second ↔ Incomplete first :=
  ⟨fun same => same.1.mpr incomplete,
    fun without => ⟨iff_of_true without incomplete, fun complete => absurd without complete⟩⟩

theorem sameRule_incomplete {first second : List Bytes} (incomplete : Incomplete first) :
    SameRule first second ↔ Incomplete second := by
  simp [SameRule, incomplete]

theorem sameRule_widen (words later : List Bytes) (more : Nat) :
    SameRule (words ++ later) (words ++ (List.replicate (more + 1) [] ++ later)) ↔
      Incomplete (words ++ later) ∨ 3 ≤ words.length ∨
        words.length = 2 ∧ AsksForDefault (words ++ later) := by
  rw [List.replicate_succ, List.cons_append]
  generalize List.replicate more [] ++ later = widened
  match words with
  | [] =>
    have incomplete : Incomplete ([] ++ [] :: widened) := by
      cases widened <;> simp
    rw [sameRule_incomplete_right incomplete]
    simp
  | [fsname] =>
    have incomplete : Incomplete ([fsname] ++ [] :: widened) := by simp
    rw [sameRule_incomplete_right incomplete]
    simp
  | [fsname, method] =>
    have default : timeoutOf (fsname :: method :: [] :: widened) = -1 := by simp
    have own : Incomplete (fsname :: method :: [] :: widened) ↔ Incomplete (fsname :: method :: later) := by
      simp
    simp only [SameRule, List.cons_append, List.nil_append, asksForDefault_cons_cons, default, own,
      true_and, List.length_cons, List.length_nil]
    by_cases incomplete : Incomplete (fsname :: method :: later)
    · simp only [incomplete, not_true_eq_false, false_imp_iff, true_or]
    · simp only [incomplete, not_false_eq_true, true_imp_iff, false_or]
      omega
  | fsname :: method :: timeout :: words => simp [SameRule]

theorem sameRule_pad (words : List Bytes) (blanks : Nat) :
    SameRule words (words ++ List.replicate blanks []) := by
  cases blanks with
  | zero => simp [SameRule]
  | succ blanks =>
    rw [List.replicate_succ]
    generalize List.replicate blanks [] = padding
    match words with
    | [] =>
      rw [sameRule_incomplete (by simp)]
      cases padding <;> simp
    | [fsname] =>
      rw [sameRule_incomplete (by simp)]
      simp
    | [fsname, method] => simp [SameRule]
    | fsname :: method :: timeout :: words => simp [SameRule]

theorem sameRule_comment (words later : List Bytes) (rest : Bytes) :
    SameRule words (words ++ (hash :: rest) :: later) ↔
      3 ≤ words.length ∨ [] ∈ words ∨ words = [] ∧ later.headD [] = [] := by
  match words with
  | [] =>
    rw [sameRule_incomplete (by simp)]
    cases later <;> simp
  | [fsname] =>
    rw [sameRule_incomplete (by simp)]
    simp [@eq_comm _ ([] : Bytes)]
  | [fsname, method] =>
    by_cases incomplete : fsname = [] ∨ method = []
    · simp [SameRule, incomplete, @eq_comm _ ([] : Bytes)]
    · simp [SameRule, incomplete, atoi_comment, @eq_comm _ ([] : Bytes)]
  | fsname :: method :: timeout :: words => simp [SameRule]

theorem Edit.oneLine_line {edit : Edit} (oneLine : OneLine edit.edited) : OneLine edit.line := by
  have kept : edit.line ⊆ edit.edited := by
    cases edit with
    | widen front back more =>
      intro byte member
      simp only [Edit.line, Edit.edited, List.mem_append, List.mem_cons] at member ⊢
      obtain before | blank | behind := member
      · exact .inl before
      · exact .inr (.inl blank)
      · exact .inr (.inr (.inr behind))
    | pad line blanks => exact List.subset_append_left _ _
    | comment line text => exact List.subset_append_left _ _
  exact ⟨fun member => oneLine.1 (kept member), fun member => oneLine.2 (kept member)⟩

theorem splitOn_firstWord (line : Bytes) : line.splitOn space = firstWord line :: wordsBehind line := by
  unfold firstWord wordsBehind
  cases pieces : line.splitOn space with
  | nil => exact absurd pieces (List.splitOn_ne_nil _ _)
  | cons first others => rfl

theorem words_widen (front back : Bytes) (more : Nat) :
    firstWord (Edit.widen front back more).line = firstWord front ∧
      wordsBehind (Edit.widen front back more).line = wordsBehind front ++ back.splitOn space := by
  simp only [firstWord, wordsBehind, Edit.line, List.splitOn_append_cons_self]
  rw [splitOn_firstWord front]
  exact ⟨rfl, rfl⟩

/-- A complete rule keeps its name and its method when words are put behind it. -/
theorem names_append {words : List Bytes} (later : List Bytes) (complete : ¬ Incomplete words) :
    words.getD 0 [] = (words ++ later).getD 0 [] ∧ words.getD 1 [] = (words ++ later).getD 1 [] := by
  match words with
  | [] | [_] => exact absurd (.inl (by simp)) complete
  | _ :: _ :: _ => exact ⟨rfl, rfl⟩

theorem names_widen {words later : List Bytes} {more : Nat}
    (complete : ¬ Incomplete (words ++ (List.replicate (more + 1) [] ++ later))) :
    (words ++ later).getD 0 [] = (words ++ (List.replicate (more + 1) [] ++ later)).getD 0 [] ∧
      (words ++ later).getD 1 [] = (words ++ (List.replicate (more + 1) [] ++ later)).getD 1 [] := by
  match words with
  | [] => exact absurd (.inr (by simp [List.replicate_succ])) complete
  | [_] => exact absurd (.inr (by simp [List.replicate_succ])) complete
  | _ :: _ :: _ => exact ⟨rfl, rfl⟩

/-- Words behind the first that differ only in blanks and comments hold the same patterns. -/
theorem Edit.patternWords_edited (edit : Edit) :
    ∃ words, edit.edited.splitOn space = firstWord edit.line :: words ∧
      ∀ home, patternWords home words = patternWords home (wordsBehind edit.line) := by
  cases edit with
  | widen front back more =>
    have edited := Edit.edited_widen front back more
    rw [splitOn_firstWord front, ← (words_widen front back more).1, List.cons_append] at edited
    refine ⟨_, edited, fun home => ?_⟩
    rw [patternWords_blanks, (words_widen front back more).2]
  | pad line blanks =>
    refine ⟨_, by rw [Edit.edited_pad, splitOn_firstWord line]; rfl, fun home => ?_⟩
    have padding := patternWords_blanks home blanks (wordsBehind line) []
    rwa [List.append_nil, List.append_nil] at padding
  | comment line text =>
    refine ⟨_, by rw [Edit.edited_comment, splitOn_firstWord line]; rfl, fun home => ?_⟩
    exact patternWords_comment home (firstWord text) (wordsBehind line) (wordsBehind text)

/-- Behind `poll` and `notify` every edit is harmless. -/
theorem Edit.readAlike_patterns {edit : Edit} (oneLine : OneLine edit.edited)
    (keyword : Keyword (firstWord edit.line)) (other : firstWord edit.line ≠ fssetWord) :
    ReadAlike edit.line edit.edited := by
  obtain ⟨words, edited, same⟩ := edit.patternWords_edited
  refine readAlike_of_confLine (Edit.oneLine_line oneLine) oneLine fun home conf => ?_
  have command := confCommand_words (splitOn_firstWord edit.line) keyword
  have editedCommand := confCommand_words edited keyword
  rw [if_neg other] at command editedCommand
  simp only [confLine, command, editedCommand, same]

/-- Behind `fsset` an edit is harmless as far as it leaves the first three places alone. -/
theorem Edit.readAlike_fsset {edit : Edit} (oneLine : OneLine edit.edited)
    (keyword : firstWord edit.line = fssetWord) : ReadAlike edit.line edit.edited ↔ edit.Harmless := by
  have lineOne := Edit.oneLine_line oneLine
  have whole := splitOn_firstWord edit.line
  rw [keyword] at whole
  cases edit with
  | widen front back more =>
    have edited := Edit.edited_widen front back more
    rw [splitOn_firstWord front, ← (words_widen front back more).1, keyword, List.cons_append] at edited
    rw [(words_widen front back more).2] at whole
    rw [readAlike_iff_sameRule lineOne oneLine whole edited fun _ => names_widen, sameRule_widen,
      Edit.Harmless, (words_widen front back more).2]
  | pad line blanks =>
    have edited := Edit.edited_pad line blanks
    change line.splitOn space = _ at whole
    rw [whole, List.cons_append] at edited
    rw [readAlike_iff_sameRule lineOne oneLine whole edited fun complete _ => names_append _ complete]
    exact iff_of_true (sameRule_pad _ _) trivial
  | comment line text =>
    have edited := Edit.edited_comment line text
    change line.splitOn space = _ at whole
    rw [whole, List.cons_append] at edited
    rw [readAlike_iff_sameRule lineOne oneLine whole edited fun complete _ => names_append _ complete,
      sameRule_comment]
    rfl

/-- Blanks and comments are of no account, and the lines of a file are read one by one, exactly
if the line is for the exclude list or the edit leaves the places of the `fsset` rule alone. -/
theorem Edit.readAlike_iff (edit : Edit) (keyword : Keyword (firstWord edit.line))
    (oneLine : OneLine edit.edited) :
    (ReadAlike edit.line edit.edited ∧ ∀ home conf contents,
        gamConfReadLoop home conf contents =
          (confLines contents).foldl (fun conf line => gamConfReadLoop home conf (some line)) conf) ↔
      firstWord edit.line ≠ fssetWord ∨ edit.Harmless := by
  rw [and_iff_left gamConfReadLoop_lines]
  by_cases fsset : firstWord edit.line = fssetWord
  · rw [Edit.readAlike_fsset oneLine fsset]
    exact ⟨.inr, fun harmless => harmless.resolve_left (not_not_intro fsset)⟩
  · exact iff_of_true (Edit.readAlike_patterns oneLine keyword fsset) (.inl fsset)

/-- `fsset nfs poll 5` gets the comment `# a`. -/
theorem readAlike_withTimeout :
    ReadAlike (fssetWord ++ [32, 110, 102, 115, 32] ++ pollWord ++ [32, 53])
        (fssetWord ++ [32, 110, 102, 115, 32] ++ pollWord ++ [32, 53, 32, 35, 32, 97]) ∧
      ∀ home conf contents, gamConfReadLoop home conf contents =
        (confLines contents).foldl (fun conf line => gamConfReadLoop home conf (some line)) conf :=
  (Edit.readAlike_iff (.comment (fssetWord ++ [32, 110, 102, 115, 32] ++ pollWord ++ [32, 53]) [32, 97])
    (.inl (by decide)) (by decide)).mpr (.inr (.inl (by decide)))

/-- Behind `fsset nfs poll` the comment `# a` counts as a timeout of zero. -/
theorem not_readAlike_comment :
    ¬ (ReadAlike (fssetWord ++ [32, 110, 102, 115, 32] ++ pollWord)
        (fssetWord ++ [32, 110, 102, 115, 32] ++ pollWord ++ [32, 35, 32, 97]) ∧
      ∀ home conf contents, gamConfReadLoop home conf contents =
        (confLines contents).foldl (fun conf line => gamConfReadLoop home conf (some line)) conf) := by
  intro alike
  have seen := (alike.1 [] {
    excludes := []
    mounts := mountsWith [{ fsname := [110, 102, 115], monType := .poll, pollTimeout := 5 }] }
    [] [] (by simp)).2
  revert seen
  decide +kernel

end Gamin.Server
