import Gamin.Rendezvous.SocketDirectory
import Mathlib.Logic.Relation

/-! # Nobody else at the socket

What the checks accept is the user's own, and it stays so: from then on no other user can put another directory or
another socket there.  This needs a kernel that does not follow the symbolic links of others in `/tmp`.
-/

namespace Gamin.Rendezvous

open Gamin Gamin.Library Relation

variable {me umask : Nat} {protectedLinks : Bool} {site : SocketSite}

/-- The entry is the user's own or root's, and leads to a directory of the user that nobody else may enter. -/
def Private (me : Nat) (protectedLinks : Bool) (site : SocketSite) : Prop :=
  ∃ entry status, site.dir = some entry ∧ Trusted me entry.owner ∧ entry.leadsTo me protectedLinks = some status ∧
    status.uid = me ∧ status.kind = .directory ∧ status.mode &&& othersBits = 0

/-- In a private directory, and no file that is not a private socket of the user. -/
def OwnSocket (me : Nat) (protectedLinks : Bool) (site : SocketSite) : Prop :=
  Private me protectedLinks site ∧ ∀ status, site.socket = some status → SecureSocket me status

/-- What other users can do between two calls.  They make, change and remove entries of their own, and look into
directories that are not private.  An entry comprises what a link leads to, so what the links of the user and of
root lead to, `/tmp/fam-user` as well as the name of the socket inside, is taken to be out of the others' reach. -/
structure OthersMove (me : Nat) (protectedLinks : Bool) (before after : SocketSite) : Prop where
  kept : ∀ entry, before.dir = some entry → Trusted me entry.owner → after.dir = some entry
  own : ∀ entry, after.dir = some entry → before.dir = some entry ∨ ¬ Trusted me entry.owner
  inside : Private me protectedLinks before → after.socketEntry = before.socketEntry

theorem OthersMove.socket {before after : SocketSite} (moves : OthersMove me protectedLinks before after)
    (alone : Private me protectedLinks before) : after.socket = before.socket := by
  rw [SocketSite.socket, moves.inside alone, SocketSite.socket]

theorem OthersMove.refl (site : SocketSite) : OthersMove me protectedLinks site site where
  kept _ here _ := here
  own _ here := .inl here
  inside _ := rfl

/-- Nobody else is at work. -/
def nobody (me : Nat) (protectedLinks : Bool) : Others (OthersMove me protectedLinks) where
  move _ site := site
  allowed _ site := .refl site

/-! ## What nobody else can undo -/

theorem stable_private : Stable (OthersMove me protectedLinks) (Private me protectedLinks) := by
  intro before after moves ⟨entry, status, here, trusted, rest⟩
  exact ⟨entry, status, moves.kept entry here trusted, trusted, rest⟩

theorem stable_ownSocket : Stable (OthersMove me protectedLinks) (OwnSocket me protectedLinks) := by
  intro before after moves ⟨alone, socket⟩
  refine ⟨stable_private moves alone, ?_⟩
  rw [moves.socket alone]
  exact socket

theorem stable_true : Stable (OthersMove me protectedLinks) (fun _ => True) := fun _ _ => trivial

/-! ## The calls -/

/-- A new directory is private, whatever the umask. -/
theorem private_mkdir (site : SocketSite) (made : (site.mkdir me umask).1 = none) :
    Private me protectedLinks (site.mkdir me umask).2 := by
  unfold SocketSite.mkdir at made ⊢
  split at made
  · contradiction
  · contradiction
  · refine ⟨_, _, rfl, .inl rfl, rfl, rfl, rfl, ?_⟩
    show ownerBits &&& (0o777 - umask % 0o1000) &&& othersBits = 0
    rw [Nat.and_comm ownerBits, Nat.and_assoc]
    exact Nat.and_zero _

/-- A secure directory that is found is private, if the way to it is not the link of somebody else. -/
theorem private_statDir (site : SocketSite) {status : FileStatus} (found : (site.statDir me true).1 = some status)
    (secure : SecureDirectory me status) : Private me true site := by
  obtain ⟨entry, here, leads⟩ := Option.bind_eq_some_iff.mp found
  refine ⟨entry, status, here, ?_, leads, secure.1, secure.2.1, secure.2.2.1⟩
  cases entry with
  | file own =>
    cases leads
    exact .inl secure.1
  | link owner target =>
    by_contra stranger
    rw [TmpEntry.leadsTo, if_pos ⟨rfl, stranger⟩] at leads
    contradiction

theorem entered_private (alone : Private me protectedLinks site) :
    site.entered me protectedLinks = site.socketEntry := by
  obtain ⟨entry, status, here, -, leads, -, directory, -⟩ := alone
  simp only [SocketSite.entered, here, Option.bind_some, leads, if_pos directory]

theorem statSocket_private (alone : Private me protectedLinks site) :
    site.statSocket me protectedLinks = (site.socket, site) := by
  rw [SocketSite.statSocket, entered_private alone, SocketSite.socket]

theorem unlinkSocket_private (alone : Private me protectedLinks site) :
    Private me protectedLinks (site.unlinkSocket me protectedLinks).2 ∧
      ((site.unlinkSocket me protectedLinks).1 = true →
        (site.unlinkSocket me protectedLinks).2.socket = none) := by
  unfold SocketSite.unlinkSocket
  split
  · split
    · exact ⟨alone, fun _ => rfl⟩
    · exact ⟨alone, nofun⟩
  · exact ⟨alone, nofun⟩

/-! ## The checks of the server -/

theorem removeUnsafe_any (rely : SocketSite → SocketSite → Prop) :
    Triple rely (fun _ => True) (removeUnsafe me) (fun _ _ => True) :=
  fun _ _ _ _ => trivial

/-- By induction on the tries that are left: each of them starts from nothing. -/
theorem gamCheckSecureDir_private (tries : Nat) :
    Triple (OthersMove me true) (fun _ => True) (gamCheckSecureDir me umask true tries)
      (fun result site => result = true → Private me true site) := by
  induction tries with
  | zero => exact .pure fun _ _ => nofun
  | succ tries inductionHypothesis =>
    rw [gamCheckSecureDir]
    refine .bind (fun result site => result = none → Private me true site)
      (.call stable_true fun site _ => private_mkdir site) fun made => ?_
    cases made with
    | none => exact .pure fun site alone _ => alone rfl
    | some error =>
      cases error with
      | access | nameTooLong | other => exact .pure fun _ _ => nofun
      | exist =>
        refine .anywhere (.bind (fun found site => ∀ status, found = some status →
          SecureDirectory me status → Private me true site)
          (.call stable_true fun site _ _ found secure => private_statDir site found secure) fun found => ?_)
        cases found with
        | none => exact .pure fun _ _ => nofun
        | some status =>
          refine .ite (fun secure => .pure fun site alone _ => alone status rfl secure) fun _ => ?_
          refine .anywhere (.bind _ (removeUnsafe_any _) fun removed => ?_)
          refine .ite (fun _ => inductionHypothesis) fun _ => .pure fun _ _ => nofun

theorem gamCheckSecurePath_ownSocket :
    Triple (OthersMove me true) (fun _ => True) (gamCheckSecurePath me umask true)
      (fun result site => result = true → OwnSocket me true site) := by
  refine .bind _ (gamCheckSecureDir_private 5) fun secure => .ite (fun isSecure => ?_) fun _ => .pure fun _ _ => nofun
  refine .strengthen (Private me true) ?_ fun _ alone => alone isSecure
  refine .bind (fun found site => Private me true site ∧ site.socket = found)
    (.call stable_private fun site alone => ?_) fun found => ?_
  · rw [statSocket_private alone]
    exact ⟨alone, rfl⟩
  · cases found with
    | none =>
      refine .pure fun site known _ => ⟨known.1, fun status here => ?_⟩
      rw [known.2] at here
      contradiction
    | some status =>
      refine .ite (fun secure => .pure fun site known _ => ⟨known.1, fun other here => ?_⟩) fun _ => ?_
      · rw [known.2] at here
        cases here
        exact secure
      · refine .strengthen (Private me true) (.call stable_private fun site alone removed => ?_)
          fun _ known => known.1
        obtain ⟨stays, gone⟩ := unlinkSocket_private alone
        refine ⟨stays, fun other here => ?_⟩
        rw [gone removed] at here
        contradiction

/-! ## The checks of the library -/

theorem gaminCheckSecureDir_private :
    Triple (OthersMove me true) (fun _ => True) (gaminCheckSecureDir me true)
      (fun result site => 0 < result → Private me true site) := by
  refine .bind (fun found site => ∀ status, found = some status → SecureDirectory me status →
    Private me true site)
    (.call stable_true fun site _ _ found secure => private_statDir site found secure) fun found => ?_
  cases found with
  | none => exact .pure fun _ _ positive => absurd positive (Int.lt_irrefl 0)
  | some status =>
    refine .ite (fun secure => .pure fun site alone _ => alone status rfl secure) fun _ => ?_
    refine .anywhere (.bind _ (removeUnsafe_any _) fun removed => ?_)
    refine .ite (fun _ => .pure fun _ _ positive => absurd positive (Int.lt_irrefl 0)) fun _ => ?_
    exact .pure fun _ _ positive => absurd positive (by decide)

/-- What is accepted is there, too. -/
theorem gaminCheckSecurePath_ownSocket :
    Triple (OthersMove me true) (fun _ => True) (gaminCheckSecurePath me true)
      (fun result site => 0 < result → OwnSocket me true site ∧ site.socket.isSome) := by
  refine .bind _ gaminCheckSecureDir_private fun dirResult => ?_
  refine .ite (fun missing => .pure fun _ _ positive => absurd positive (by omega)) fun present => ?_
  refine .strengthen (Private me true) ?_ fun _ alone => alone (by omega)
  refine .bind (fun found site => Private me true site ∧ site.socket = found)
    (.call stable_private fun site alone => ?_) fun found => ?_
  · rw [statSocket_private alone]
    exact ⟨alone, rfl⟩
  · cases found with
    | none => exact .pure fun _ _ positive => absurd positive (Int.lt_irrefl 0)
    | some status =>
      refine .ite (fun secure => .pure fun site known _ => ?_) fun _ => ?_
      · refine ⟨⟨known.1, fun other here => ?_⟩, by rw [known.2]; rfl⟩
        rw [known.2] at here
        cases here
        exact secure
      · refine .anywhere (.bind (fun _ _ => True) (.call stable_true fun _ _ => trivial) fun removed => ?_)
        refine .ite (fun _ => .pure fun _ _ positive => absurd positive (Int.lt_irrefl 0)) fun _ => ?_
        exact .pure fun _ _ positive => absurd positive (by decide)

/-- Where the server is going to bind its socket and where the library is going to connect to, nobody else can ever
interfere: neither between the calls of the check nor afterwards. -/
theorem accepted_forever (me umask : Nat) (others : Others (OthersMove me true)) (site : SocketSite) :
    (((gamCheckSecurePath me umask true).outcome others.move site).1 = true →
        ∀ later, ReflTransGen (OthersMove me true)
            ((gamCheckSecurePath me umask true).outcome others.move site).2 later →
          OwnSocket me true later) ∧
      (((gaminCheckSecurePath me true).outcome others.move site).1 = 1 →
        ∀ later, ReflTransGen (OthersMove me true) ((gaminCheckSecurePath me true).outcome others.move site).2 later →
          OwnSocket me true later ∧ later.socket.isSome) := by
  constructor
  · intro accepted later moves
    have own := gamCheckSecurePath_ownSocket.outcome others site trivial accepted
    exact stable_ownSocket.forever moves own
  · intro accepted later moves
    have own := gaminCheckSecurePath_ownSocket.outcome others site trivial (by rw [accepted]; decide)
    have stable : Stable (OthersMove me true) (fun site => OwnSocket me true site ∧ site.socket.isSome) := by
      intro before after move known
      refine ⟨stable_ownSocket move known.1, ?_⟩
      rw [move.socket known.1.1]
      exact known.2
    exact stable.forever moves own

/-- A directory and a socket that are in order. -/
def usedSite : SocketSite where
  dir := some (.file { uid := 1000, kind := .directory, mode := 0o700 })
  socketEntry := some (.file { uid := 1000, kind := .socket, mode := 0o600 })
  crowded := false
  refusal := none

theorem usedSite_accepted : OwnSocket 1000 true usedSite ∧ usedSite.socket.isSome :=
  ⟨(accepted_forever 1000 0o022 (nobody 1000 true) usedSite).1 rfl usedSite .refl,
    ((accepted_forever 1000 0o022 (nobody 1000 true) usedSite).2 rfl usedSite .refl).2⟩

/-- If links were followed, a stranger could lend the server its own user's directory and take it away again. -/
example : ((gamCheckSecurePath 1000 0o022 false).outcome (nobody 1000 false).move
    { dir := some (.link 1001 (some { uid := 1000, kind := .directory, mode := 0o700 }))
      socketEntry := none, crowded := false, refusal := none }).1 = true := rfl

/-! ## Entries of strangers -/

/-- The name belongs to a third user. -/
def Taken (me : Nat) (site : SocketSite) : Prop := ∃ entry, site.dir = some entry ∧ ¬ Trusted me entry.owner

/-- The third user holds on to it. -/
def HoldsOn (me : Nat) (before after : SocketSite) : Prop := Taken me before → Taken me after

theorem stable_taken : Stable (HoldsOn me) (Taken me) := fun holds taken => holds taken

/-- What is found there is not in order. -/
theorem taken_statDir (taken : Taken me site) {status : FileStatus}
    (found : (site.statDir me true).1 = some status) : ¬ SecureDirectory me status := by
  intro secure
  obtain ⟨entry, here, stranger⟩ := taken
  obtain ⟨alone, _, there, trusted, _⟩ := private_statDir site found secure
  rw [here] at there
  cases there
  exact stranger trusted

/-- Nobody but root can remove it. -/
theorem taken_mayRemove (user : me ≠ 0) {entry : TmpEntry} (stranger : ¬ Trusted me entry.owner) :
    ¬ site.MayRemove me entry :=
  fun may => may.2.elim (fun own => stranger (.inl own)) user

theorem removeUnsafe_taken (user : me ≠ 0) :
    Triple (HoldsOn me) (Taken me) (removeUnsafe me) (fun removed site => removed = false ∧ Taken me site) := by
  refine .bind (fun removed site => removed = false ∧ Taken me site)
    (.call stable_taken fun site taken => ?_) fun removed => .ite (fun isRemoved => ?_) fun _ => ?_
  · obtain ⟨entry, here, stranger⟩ := taken
    simp [SocketSite.rmdir, here, taken_mayRemove user stranger, Taken, stranger]
  · exact .pure fun site known => absurd known.1 (by rw [isRemoved]; decide)
  · refine .strengthen (Taken me) (.call stable_taken fun site taken => ?_) fun _ known => known.2
    obtain ⟨entry, here, stranger⟩ := taken
    simp [SocketSite.unlinkDir, here, taken_mayRemove user stranger, Taken, stranger]

theorem gamCheckSecureDir_taken (user : me ≠ 0) (tries : Nat) :
    Triple (HoldsOn me) (Taken me) (gamCheckSecureDir me umask true tries)
      (fun result site => result = false ∧ Taken me site) := by
  cases tries with
  | zero => exact .pure fun _ taken => ⟨rfl, taken⟩
  | succ tries =>
    rw [gamCheckSecureDir]
    refine .bind (fun result site => result = some .exist ∧ Taken me site)
      (.call stable_taken fun site taken => ?_) fun made => ?_
    · obtain ⟨entry, here, stranger⟩ := taken
      simp [SocketSite.mkdir, here, Taken, stranger]
    · cases made with
      | none => exact .pure fun site known => absurd known.1 nofun
      | some error =>
        cases error with
        | access | nameTooLong | other => exact .pure fun site known => ⟨rfl, known.2⟩
        | exist =>
          refine .strengthen (Taken me) (.bind (fun found site => Taken me site ∧
            ∀ status, found = some status → ¬ SecureDirectory me status)
            (.call stable_taken fun site taken => ⟨taken, fun _ => taken_statDir taken⟩) fun found => ?_)
            fun _ known => known.2
          cases found with
          | none => exact .pure fun site known => ⟨rfl, known.1⟩
          | some status =>
            refine .ite (fun secure => .pure fun site known => absurd secure (known.2 status rfl)) fun _ => ?_
            refine .strengthen (Taken me) (.bind _ (removeUnsafe_taken user) fun removed => ?_)
              fun _ known => known.1
            refine .ite (fun isRemoved => ?_) fun _ => .pure fun site known => ⟨rfl, known.2⟩
            exact fun _ _ site known => absurd known.1 (by rw [isRemoved]; decide)

theorem gaminCheckSecureDir_taken (user : me ≠ 0) :
    Triple (HoldsOn me) (Taken me) (gaminCheckSecureDir me true) (fun result site => result ≤ 0 ∧ Taken me site) := by
  refine .bind (fun found site => Taken me site ∧ ∀ status, found = some status → ¬ SecureDirectory me status)
    (.call stable_taken fun site taken => ⟨taken, fun _ => taken_statDir taken⟩) fun found => ?_
  cases found with
  | none => exact .pure fun site known => ⟨Int.le_refl 0, known.1⟩
  | some status =>
    refine .ite (fun secure => .pure fun site known => absurd secure (known.2 status rfl)) fun _ => ?_
    refine .strengthen (Taken me) (.bind _ (removeUnsafe_taken user) fun removed => ?_) fun _ known => known.1
    exact .ite (fun _ => .pure fun site known => ⟨Int.le_refl 0, known.2⟩)
      fun _ => .pure fun site known => ⟨by decide, known.2⟩

/-- As long as a third user holds the name, the server does not bind its socket there, the library does not take what
is there for its user's, and neither of them gets rid of it. -/
theorem taken_refused {me : Nat} (user : me ≠ 0) (umask : Nat) (others : Others (HoldsOn me)) {site : SocketSite}
    (taken : Taken me site) :
    (((gamCheckSecurePath me umask true).outcome others.move site).1 = false ∧
        Taken me ((gamCheckSecurePath me umask true).outcome others.move site).2) ∧
      ((gaminCheckSecurePath me true).outcome others.move site).1 ≤ 0 ∧
        Taken me ((gaminCheckSecurePath me true).outcome others.move site).2 := by
  have server : Triple (HoldsOn me) (Taken me) (gamCheckSecurePath me umask true)
      (fun result site => result = false ∧ Taken me site) := by
    refine .bind _ (gamCheckSecureDir_taken user 5) fun secure => .ite (fun isSecure => ?_) fun _ => ?_
    · exact fun _ _ site known => absurd known.1 (by rw [isSecure]; decide)
    · exact .pure fun site known => ⟨rfl, known.2⟩
  have library : Triple (HoldsOn me) (Taken me) (gaminCheckSecurePath me true)
      (fun result site => result ≤ 0 ∧ Taken me site) := by
    refine .bind _ (gaminCheckSecureDir_taken user) fun result => .ite (fun _ => .pure fun _ known => known) ?_
    exact fun present _ _ site known => absurd known.1 present
  exact ⟨server.outcome others site taken, library.outcome others site taken⟩

/-- The third user has been first, and stays. -/
def squatter : Others (HoldsOn 1000) where
  move _ site := site
  allowed _ _ taken := taken

theorem squatted_refused :
    ((gamCheckSecurePath 1000 0o022 true).outcome squatter.move
      { dir := some (.file { uid := 1001, kind := .directory, mode := 0o777 }), socketEntry := none, crowded := false
        refusal := none }).1 = false :=
  (taken_refused (by decide) 0o022 squatter ⟨_, rfl, by decide⟩).1.1

/-! ## Nobody else -/

/-- The user may remove the entry of the directory: it is the user's own, or the user is root, and a directory has to
be empty. -/
def SocketSite.Removable (me : Nat) (site : SocketSite) (entry : TmpEntry) : Prop :=
  (entry.owner = me ∨ me = 0) ∧ (entry.isDirectory → site.isEmpty)

instance (entry : TmpEntry) : Decidable (site.Removable me entry) := inferInstanceAs (Decidable (_ ∧ (_ → _)))

/-- There is no directory yet, or a secure one, or something that the user may remove; a dangling link is none of
these. -/
def UsableDir (me : Nat) (protectedLinks : Bool) (site : SocketSite) : Prop :=
  ∀ entry, site.dir = some entry → ∃ status, entry.leadsTo me protectedLinks = some status ∧
    (SecureDirectory me status ∨ site.Removable me entry)

/-- In a secure directory, a directory has the name of the socket. -/
def Blocked (me : Nat) (protectedLinks : Bool) (site : SocketSite) : Prop :=
  ∃ entry status inner, site.dir = some entry ∧ entry.leadsTo me protectedLinks = some status ∧
    SecureDirectory me status ∧ site.socketEntry = some inner ∧ inner.isDirectory

/-- The user may have a directory and a socket there. -/
def Usable (me : Nat) (protectedLinks : Bool) (site : SocketSite) : Prop :=
  UsableDir me protectedLinks site ∧ ¬ Blocked me protectedLinks site

section

variable {entry : TmpEntry} (here : site.dir = some entry) (willing : site.refusal = none)
include here willing

theorem rmdir_alone :
    site.rmdir me =
      if entry.isDirectory ∧ site.Removable me entry then (true, site.withoutDir) else (false, site) := by
  simp only [SocketSite.rmdir, here]
  refine if_congr ⟨fun removes => ?_, fun removes => ?_⟩ rfl rfl
  · exact ⟨removes.1, removes.2.2.2, fun _ => removes.2.1⟩
  · exact ⟨removes.1, removes.2.2 removes.1, willing, removes.2.1⟩

theorem unlinkDir_alone :
    site.unlinkDir me =
      if ¬ entry.isDirectory ∧ site.Removable me entry then (true, site.withoutDir) else (false, site) := by
  simp only [SocketSite.unlinkDir, here]
  refine if_congr ⟨fun removes => ?_, fun removes => ?_⟩ rfl rfl
  · exact ⟨removes.1, removes.2.2, fun directory => absurd directory removes.1⟩
  · exact ⟨removes.1, willing, removes.2.1⟩

/-- What the user may remove is removed by one of the two calls. -/
theorem removeUnsafe_alone :
    Triple Idle (· = site) (removeUnsafe me) (fun removed after =>
      removed = decide (site.Removable me entry) ∧ after = if removed then site.withoutDir else site) := by
  refine .bind _ (.call_known _ _) fun removed => ?_
  rw [rmdir_alone here willing]
  by_cases first : entry.isDirectory ∧ site.Removable me entry
  · simp only [if_pos first]
    refine .ite (fun isRemoved => .pure fun after known => ?_) fun isThere => ?_
    · exact ⟨(decide_eq_true first.2).symm, known.2⟩
    · exact fun _ _ _ known => absurd known.1 isThere
  · simp only [if_neg first]
    refine .ite (fun isRemoved _ _ _ known => absurd (isRemoved.symm.trans known.1) nofun) fun _ => ?_
    refine .strengthen _ (.weaken (.call_known _ _) fun result after known => ?_) fun _ known => known.2
    rw [unlinkDir_alone here willing] at known
    by_cases removable : site.Removable me entry
    · have other : ¬ entry.isDirectory := fun directory => first ⟨directory, removable⟩
      rw [if_pos ⟨other, removable⟩] at known
      exact ⟨known.1.trans (decide_eq_true removable).symm, by rw [known.1]; exact known.2⟩
    · rw [if_neg fun removes => removable removes.2] at known
      exact ⟨known.1.trans (decide_eq_false removable).symm, by rw [known.1]; exact known.2⟩

end

/-- A name in a secure directory is there for the calls. -/
theorem blocked_iff {entry : TmpEntry} {status : FileStatus} (here : site.dir = some entry)
    (leads : entry.leadsTo me protectedLinks = some status) (secure : SecureDirectory me status) :
    Blocked me protectedLinks site ↔
      ∃ inner, site.entered me protectedLinks = some inner ∧ inner.isDirectory := by
  simp only [SocketSite.entered, here, Option.bind_some, leads, if_pos secure.2.1]
  constructor
  · rintro ⟨_, _, inner, _, _, _, named, directory⟩
    exact ⟨inner, named, directory⟩
  · rintro ⟨inner, named, directory⟩
    exact ⟨entry, status, inner, here, leads, secure, named, directory⟩

/-- What the check of the directory tells of a site, and what it leaves for the check of the socket. -/
structure DirChecked (me : Nat) (protectedLinks : Bool) (site : SocketSite) (result : Bool) (after : SocketSite) :
    Prop where
  verdict : result = true ↔ UsableDir me protectedLinks site
  willing : after.refusal = none
  blocked : result = true →
    ((∃ inner, after.entered me protectedLinks = some inner ∧ inner.isDirectory) ↔ Blocked me protectedLinks site)

/-- A missing directory is made. -/
theorem gamCheckSecureDir_missing {free : SocketSite} (missing : free.dir = none) (willing : free.refusal = none)
    (tries : Nat) :
    Triple Idle (· = free) (gamCheckSecureDir me umask protectedLinks (tries + 1))
      (fun result after => result = true ∧ after.refusal = none ∧ after.entered me protectedLinks = none) := by
  rw [gamCheckSecureDir]
  refine .bind _ (.call_known _ _) fun result => ?_
  simp only [SocketSite.mkdir, missing, willing]
  cases result with
  | none =>
    refine .pure fun after known => ?_
    rw [known.2]
    exact ⟨rfl, rfl, rfl⟩
  | some error => exact fun _ _ _ known => absurd known.1 nofun

/-- On its own the check of the directory gives its verdict in the second try at the latest. -/
theorem gamCheckSecureDir_alone (willing : site.refusal = none) (tries : Nat) :
    Triple Idle (· = site) (gamCheckSecureDir me umask protectedLinks (tries + 2))
      (DirChecked me protectedLinks site) := by
  -- a directory that has just been made holds nothing
  have made {result : Bool} {after : SocketSite} (usable : UsableDir me protectedLinks site)
      (free : ¬ Blocked me protectedLinks site)
      (known : result = true ∧ after.refusal = none ∧ after.entered me protectedLinks = none) :
      DirChecked me protectedLinks site result after :=
    ⟨iff_of_true known.1 usable, known.2.1, fun _ => iff_of_false (by simp [known.2.2]) free⟩
  cases here : site.dir with
  | none =>
    refine .weaken (gamCheckSecureDir_missing here willing (tries + 1)) fun result after => made ?_ ?_
    · exact fun entry there => absurd (here.symm.trans there) nofun
    · exact fun ⟨entry, _, _, there, _⟩ => absurd (here.symm.trans there) nofun
  | some entry =>
    have usable : UsableDir me protectedLinks site ↔ ∃ status, entry.leadsTo me protectedLinks = some status ∧
        (SecureDirectory me status ∨ site.Removable me entry) := by
      simp only [UsableDir, here, Option.some.injEq, forall_eq']
    rw [gamCheckSecureDir]
    refine .bind _ (.call_known _ _) fun result => ?_
    simp only [SocketSite.mkdir, here]
    cases result with
    | none => exact fun _ _ _ known => absurd known.1 nofun
    | some error =>
      cases error with
      | access | nameTooLong | other => exact fun _ _ _ known => absurd known.1 nofun
      | exist =>
        refine .strengthen (· = site) (.bind _ (.call_known _ _) fun found => ?_) fun _ known => known.2
        simp only [SocketSite.statDir, here, Option.bind_some]
        cases found with
        | none =>
          refine .pure fun after known => ⟨iff_of_false nofun fun this => ?_, by rw [known.2]; exact willing, nofun⟩
          obtain ⟨status, leads, _⟩ := usable.mp this
          exact absurd (known.1.trans leads) nofun
        | some status =>
          by_cases leads : entry.leadsTo me protectedLinks = some status
          case neg => exact fun _ _ _ known => absurd known.1.symm leads
          refine .ite (fun secure => .pure fun after known => ?_) fun insecure => ?_
          · rw [known.2]
            exact ⟨iff_of_true rfl (usable.mpr ⟨status, leads, .inl secure⟩), willing,
              fun _ => (blocked_iff here leads secure).symm⟩
          · have usable : UsableDir me protectedLinks site ↔ site.Removable me entry := by
              rw [usable]
              refine ⟨fun ⟨other, leadsToo, either⟩ => either.resolve_left ?_, fun may => ⟨status, leads, .inr may⟩⟩
              rw [← Option.some.inj (leads.symm.trans leadsToo)]
              exact insecure
            refine .strengthen _ (.bind _ (removeUnsafe_alone here willing) fun removed => ?_) fun _ known => known.2
            by_cases may : site.Removable me entry
            · -- the second try finds nothing and makes the directory
              refine .ite (fun isRemoved => ?_) fun isThere _ _ _ known =>
                absurd (known.1.trans (decide_eq_true may)) isThere
              have remade := @gamCheckSecureDir_missing me umask protectedLinks site.withoutDir rfl willing tries
              refine .strengthen _ (remade.weaken fun result after => made (usable.mpr may) ?_)
                fun after known => by rw [known.2, if_pos isRemoved]
              rintro ⟨_, _, _, there, leadsToo, secure, _⟩
              cases here.symm.trans there
              cases leads.symm.trans leadsToo
              exact insecure secure
            · refine .ite (fun isRemoved _ _ _ known => absurd (known.1.symm.trans isRemoved) (by simp [may]))
                fun isThere => .pure fun after known => ?_
              rw [known.2, if_neg isThere]
              exact ⟨iff_of_false nofun (usable.not.mpr may), willing, nofun⟩

/-- The check of the socket, as the server makes it. -/
theorem socketCheck_alone (willing : site.refusal = none) :
    Triple Idle (· = site)
      (do match ← call (SocketSite.statSocket me protectedLinks) with
        | none => return true
        | some status =>
          if SecureSocket me status then return true else call (SocketSite.unlinkSocket me protectedLinks))
      (fun result _ => result = true ↔
        ¬ ∃ inner, site.entered me protectedLinks = some inner ∧ inner.isDirectory) := by
  refine .bind _ (.call_known _ _) fun found => ?_
  simp only [SocketSite.statSocket]
  cases named : site.entered me protectedLinks with
  | none =>
    cases found with
    | none => exact .pure fun _ _ => iff_of_true rfl (by simp)
    | some status => exact fun _ _ _ known => absurd known.1 nofun
  | some entry =>
    simp only [Option.bind_some, Option.some.injEq, exists_eq_left']
    cases found with
    | none =>
      refine .pure fun _ known => iff_of_true rfl ?_
      cases entry with
      | file status => exact absurd known.1 nofun
      | link owner target => nofun
    | some status =>
      refine .ite (fun secure => .pure fun _ known => iff_of_true rfl fun directory => ?_) fun _ => ?_
      · cases entry with
        | file own =>
          cases known.1
          exact absurd (secure.2.1.symm.trans (of_decide_eq_true directory)) nofun
        | link owner target => exact absurd directory nofun
      -- what is not secure is unlinked, which works for all but a directory
      · refine .strengthen _ (.weaken (.call_known _ site) fun result after known => ?_) fun _ known => known.2
        rw [known.1]
        simp only [SocketSite.unlinkSocket, named, willing, Option.isNone_none, and_true]
        split
        case isTrue other => exact iff_of_true rfl other
        case isFalse directory => exact iff_of_false nofun directory

end Gamin.Rendezvous
