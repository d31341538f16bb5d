/-
  Replacing — a file that is replaced, on a disk.

  A replacement goes by way of a draft: an entry at a free trail, which is filled, gets the
  permissions of the file, and takes its place.  Any of these steps may fail, and then the draft is
  removed again.  What is proved is that no trace of the draft is left in either case.

  1. **The draft** (`insert_insert`, `erase_insert`): with whatever is done to it, the disk is the
     old one and one entry more, and without it the disk is the old one.  So at every point of a
     replacement the disk is `d.insert draft e` for some entry `e`, and only `e` has to be followed.

  2. **Paths** (`locate_of_keeps`): they lead where they led, for what was there stays, files as
     files and directories as directories (`Keeps`).  Contents and permissions may change; a path
     does not look at them.

  3. **Steps** (`create_cases`, `write_eq`, `sync_eq`, `keepPermissions_eq`, `rename_eq`): each one
     does what it says, or fails and changes nothing.  The exception is writing, which may fail with
     a part of the text stored; that part is in the draft.

  4. **All or nothing** (`replace_outcome`): what keeps a file from being replaced leaves the disk
     as it was; otherwise the file holds the new text, and nothing else changed.
-/
import XmlGraft.Files.Disk

namespace XmlGraft

namespace Disk

/-! ## The draft -/

/-- What is put in the place of an entry hides it. -/
theorem insert_insert (d : Disk) (l : Trail) (e e' : Entry) :
    (d.insert l e).insert l e' = d.insert l e' := by
  simp [insert, erase, List.filter_filter]

/-- **Without the draft** the disk is what it was, entry for entry, for at its trail there was
    none. -/
theorem erase_insert {d : Disk} {l : Trail} (free : d.lookup? l = none) (e : Entry) :
    (d.insert l e).erase l = d := by
  -- no entry stands at the trail of the draft, so taking those at it away takes none
  have others : d.entries.filter (·.1 != l) = d.entries := by
    refine List.filter_eq_self.2 fun x mem => ?_
    rw [bne_comm]
    exact List.lookup_eq_none_iff.1 free x mem
  have same : (d.insert l e).erase l = { d with entries := d.entries.filter (·.1 != l) } := by
    simp [insert, erase, List.filter_filter]
  rw [same, others]

theorem lookup?_insert_self (d : Disk) (l : Trail) (e : Entry) : (d.insert l e).lookup? l = some e := by
  rw [lookup?_insert, if_pos rfl]

theorem lookup?_of_free? {d : Disk} {directory l : Trail} (h : d.free? directory = some l) :
    d.lookup? l = none :=
  Option.isNone_iff_eq_none.1 (List.find?_some (p := fun l => (d.lookup? l).isNone) h)

end Disk

/-! ## Paths -/

/-- Is it a file? -/
def Entry.isFile : Entry → Bool
  | file .. => true
  | directory _ => false

namespace Disk

/-- **What a disk has, another one has**: files as files, and directories as directories. -/
structure Keeps (d d' : Disk) : Prop where
  home : d'.home = d.home
  entry : ∀ l e, d.lookup? l = some e → ∃ e', d'.lookup? l = some e' ∧ e'.isFile = e.isFile

/-- An entry at a free trail, or in the place of one of its kind. -/
theorem keeps_insert {d : Disk} {l : Trail} {e : Entry}
    (kind : ∀ e', d.lookup? l = some e' → e.isFile = e'.isFile) : d.Keeps (d.insert l e) where
  home := rfl
  entry k e' there := by
    rw [lookup?_insert]
    split
    · next same =>
      subst same
      exact ⟨e, rfl, kind e' there⟩
    · exact ⟨e', there, rfl⟩

theorem keeps_insert_free {d : Disk} {l : Trail} (free : d.lookup? l = none) (e : Entry) :
    d.Keeps (d.insert l e) :=
  keeps_insert fun e' there => by rw [free] at there; cases there

/-- **A walk that arrives** arrives where it did.  Along the recursion of the walk: a directory on
    the way is one still, and so is a file at the end. -/
theorem walk_of_keeps {d d' : Disk} (keeps : d.Keeps d') {here l : Trail} {names : List Text}
    (h : d.walk here names = .ok (.taken l)) : d'.walk here names = .ok (.taken l) := by
  fun_induction Disk.walk d here names with
  | case1 here => exact h
  | case2 here name rest dot ih => rw [walk, if_pos dot, ih h]
  | case3 here rest dot ih => rw [walk, if_neg dot, if_pos rfl, ih h]
  | case4 => cases h
  | case5 here name rest dot dots fits mode there ih =>
    obtain ⟨e, there', kind⟩ := keeps.entry _ _ there
    cases e with
    | file => cases kind
    | directory mode' =>
      rw [walk, if_neg dot, if_neg dots, if_neg fits, there']
      exact ih h
  -- a file may only be the last name of a path
  | case6 here name rest dot dots fits bytes mode there last =>
    obtain ⟨e, there', kind⟩ := keeps.entry _ _ there
    cases e with
    | directory => cases kind
    | file bytes' mode' =>
      rw [walk, if_neg dot, if_neg dots, if_neg fits, there']
      simpa only [last, if_true] using h
  | case7 | case8 | case9 => cases h

/-- **A path that leads to something** leads to it still. -/
theorem locate_of_keeps {d d' : Disk} (keeps : d.Keeps d') {path : Text} {l : Trail}
    (h : d.locate path = .ok (.taken l)) : d'.locate path = .ok (.taken l) := by
  rw [locate] at h ⊢
  rw [keeps.home]
  split at h
  · cases h
  · next plain =>
    split at h
    · cases h
    · next some_path =>
      split at h
      · cases h
      · next fits =>
        rw [if_neg plain, if_neg some_path, if_neg fits]
        exact walk_of_keeps keeps h

/-- **A file that a path leads to.** -/
structure Holds (d : Disk) (path : Text) (l : Trail) (bytes : ByteArray) (mode : Nat) : Prop where
  located : d.locate path = .ok (.taken l)
  file : d.lookup? l = some (.file bytes mode)

/-- What is read is the text of a file: the path leads to one, and its bytes are text. -/
theorem exists_holds {d : Disk} {path text : Text} (h : d.readText path = .ok text) :
    ∃ l bytes mode, d.Holds path l bytes mode ∧ Text.ofUtf8? bytes = some text := by
  rw [readText] at h
  cases spot : d.locate path with
  | error fault =>
    rw [spot] at h
    cases h
  | ok spot' =>
    rw [spot] at h
    cases spot' with
    | vacant l => cases h
    | taken l =>
      simp only [bind, Except.bind] at h
      split at h
      · next bytes mode held =>
        split at h
        · next own =>
          cases h
          exact ⟨l, bytes, mode, ⟨spot, held⟩, own⟩
        · cases h
      · cases h

/-- A file that holds the bytes of a text is read as that text. -/
theorem Holds.readText {d : Disk} {path text : Text} {l : Trail} {mode : Nat}
    (h : d.Holds path l text.utf8 mode) : d.readText path = .ok text := by
  rw [Disk.readText, h.located]
  simp only [bind, Except.bind, h.file, Text.ofUtf8?_utf8]
  rfl

/-- **The new file** is where the old one was, since a path does not look into files. -/
theorem Holds.insert {d : Disk} {path : Text} {l : Trail} {bytes : ByteArray} {mode : Nat}
    (h : d.Holds path l bytes mode) (bytes' : ByteArray) (mode' : Nat) :
    (d.insert l (.file bytes' mode')).Holds path l bytes' mode' where
  located := locate_of_keeps (keeps_insert fun e' there => by
    rw [h.file] at there
    cases there
    rfl) h.located
  file := lookup?_insert_self _ _ _

/-- A draft beside the file leaves it alone. -/
theorem Holds.beside {d : Disk} {path : Text} {l draft : Trail} {bytes : ByteArray} {mode : Nat}
    (h : d.Holds path l bytes mode) (free : d.lookup? draft = none) (e : Entry) :
    (d.insert draft e).Holds path l bytes mode where
  located := locate_of_keeps (keeps_insert_free free e) h.located
  file := by
    -- the file is there and the draft was free, so they are two
    have other : l ≠ draft := by
      rintro rfl
      rw [h.file] at free
      cases free
    rw [lookup?_insert, if_neg other, h.file]

end Disk

/-! ## Steps -/

namespace Disk

variable {d : Disk} {path : Text} {l draft : Trail} {bytes : ByteArray} {mode : Nat}

/-- A draft is made at a free trail, or nothing is made. -/
theorem create_cases (d : Disk) (path : Text) :
    (∃ fault, d.create path = .error fault) ∨
      ∃ draft, d.lookup? draft = none ∧
        d.create path = .ok (draft, d.insert draft (.file .empty 0o600)) := by
  cases above : d.directory path with
  | error fault =>
    refine .inl ⟨fault, ?_⟩
    rw [create, above]
    rfl
  | ok directory =>
    cases vacant : d.free? directory with
    | none =>
      refine .inl ⟨.other "File exists (os error 17)", ?_⟩
      rw [create, above]
      simp only [bind, Except.bind, vacant]
      rfl
    | some draft =>
      refine .inr ⟨draft, lookup?_of_free? vacant, ?_⟩
      rw [create, above]
      simp only [bind, Except.bind, vacant]
      rfl

theorem write_draft (d : Disk) (draft : Trail) (e : Entry) (bytes : ByteArray) :
    (d.insert draft e).write draft bytes = .ok (d.insert draft (.file bytes e.mode)) := by
  rw [write, lookup?_insert_self]
  simp only [insert_insert]

theorem setMode_draft (d : Disk) (draft : Trail) (e : Entry) (mode : Nat) :
    (d.insert draft e).setMode draft mode = .ok (d.insert draft (e.withMode mode)) := by
  rw [setMode, lookup?_insert_self]
  simp only [insert_insert]

/-- **The draft takes the place of the file**: its own trail is free again, and the file's has its
    entry. -/
theorem rename_draft (held : d.Holds path l bytes mode) (free : d.lookup? draft = none) (e : Entry) :
    (d.insert draft e).rename draft path = .ok (d.insert l e) := by
  have beside := held.beside free e
  rw [rename, lookup?_insert_self, beside.located]
  simp only [bind, Except.bind, beside.file, erase_insert free]
  rfl

theorem Holds.at?_path (h : d.Holds path l bytes mode) : d.at? path = some (.file bytes mode) := by
  rw [Disk.at?, h.located]
  exact h.file

end Disk

namespace Session

variable {α β ε : Type} {failing : Option StorageStep} {d d' : Disk}

/-- **What a session comes to** on a disk, when a step fails or none. -/
def on (x : Session α) (failing : Option StorageStep) (d : Disk) : α × Disk := x failing d

theorem on_bind (x : Session α) (f : α → Session β) :
    (x >>= f).on failing d = (f (x.on failing d).1).on failing (x.on failing d).2 := rfl

/-- After a success the rest is done, with its result and its disk. -/
theorem on_bind_ok {x : ExceptT ε Session α} {f : α → ExceptT ε Session β} {a : α}
    (h : x.run.on failing d = (.ok a, d')) :
    (x >>= f).run.on failing d = (f a).run.on failing d' := by
  have whole : (x >>= f).run = x.run >>= ExceptT.bindCont f := rfl
  rw [whole, on_bind, h]
  rfl

/-- After a failure nothing more is done. -/
theorem on_bind_error {x : ExceptT ε Session α} {f : α → ExceptT ε Session β} {fault : ε}
    (h : x.run.on failing d = (.error fault, d')) :
    (x >>= f).run.on failing d = (.error fault, d') := by
  have whole : (x >>= f).run = x.run >>= ExceptT.bindCont f := rfl
  rw [whole, on_bind, h]
  rfl

theorem on_lift {x : Session α} {a : α} (h : x.on failing d = (a, d')) :
    (x : ExceptT ε Session α).run.on failing d = (.ok a, d') := by
  change (Except.ok (x.on failing d).1, (x.on failing d).2) = _
  rw [h]

/-- **A step does what it says**, unless it is the one that fails. -/
theorem step_eq (name : StorageStep) (act : Disk → Except FileFault (α × Disk)) {a : α}
    (done : act d = .ok (a, d')) (failing : Option StorageStep) :
    (step name act).on failing d = if failing = some name then (.error broken, d) else (.ok a, d') := by
  rw [on, step, attempt, done]

theorem change_eq (name : StorageStep) (act : Disk → Except FileFault Disk) (done : act d = .ok d')
    (failing : Option StorageStep) :
    (change name act).on failing d = if failing = some name then (.error broken, d) else (.ok (), d') :=
  step_eq name _ (by rw [changing, done]; rfl) failing

/-- A step that cannot be done changes nothing. -/
theorem step_error (name : StorageStep) (act : Disk → Except FileFault (α × Disk)) {fault : FileFault}
    (undone : act d = .error fault) (failing : Option StorageStep) :
    ∃ told, (step name act).on failing d = (.error told, d) := by
  rw [on, step, attempt, undone]
  split
  · exact ⟨broken, rfl⟩
  · exact ⟨fault, rfl⟩

end Session

/-! ## All or nothing -/

namespace Storage

open Session Disk

variable {d : Disk} {path text : Text} {l draft : Trail} {bytes : ByteArray} {mode : Nat}

/-- Reading a file that has a text gives it, unless this step is the one that fails. -/
theorem read_eq (held : d.readText path = .ok text) (failing : Option StorageStep) :
    (read (m := Session) path).on failing d
      = if failing = some .read then (.error broken, d) else (.ok text, d) :=
  step_eq .read (fun d => (d.readText path).map fun text => (text, d)) (by rw [held]; rfl) failing

/-- Reading a file that has none fails, whatever step does. -/
theorem read_error {fault : FileFault} (none : d.readText path = .error fault)
    (failing : Option StorageStep) :
    ∃ told, (read (m := Session) path).on failing d = (.error told, d) :=
  step_error .read (fun d => (d.readText path).map fun text => (text, d)) (by rw [none]; rfl) failing

/-! Each step of a replacement, as the disk sees it: it succeeds unless it is made to fail. -/

/-- Writing the draft stores all of the text, or fails with a part of it stored. -/
theorem write_eq (d : Disk) (draft : Trail) (e : Entry) (text : Text) (failing : Option StorageStep) :
    (∃ stored, failing = some (.write stored) ∧
      (ExceptT.mk (write (m := Session) draft text)).run.on failing (d.insert draft e)
        = (.error broken, d.insert draft (.file (text.utf8.extract 0 stored) e.mode))) ∨
    ((∀ stored, failing ≠ some (.write stored)) ∧
      (ExceptT.mk (write (m := Session) draft text)).run.on failing (d.insert draft e)
        = (.ok (), d.insert draft (.file text.utf8 e.mode))) := by
  have put (bytes : ByteArray) : attempt (changing (·.write draft bytes)) (d.insert draft e)
      = (.ok (), d.insert draft (.file bytes e.mode)) := by
    rw [attempt, changing, write_draft]
    rfl
  -- only this step stores something when it fails
  rcases failing with _ | step
  · exact .inr ⟨nofun, put text.utf8⟩
  cases step with
  | write stored =>
    refine .inl ⟨stored, rfl, ?_⟩
    change (Except.error broken, (attempt _ (d.insert draft e)).2) = _
    rw [put]
  | read | create | sync | setPermissions | rename => exact .inr ⟨nofun, put text.utf8⟩

/-- Bringing the draft to the disk changes nothing that is seen. -/
theorem sync_eq (d : Disk) (draft : Trail) (failing : Option StorageStep) :
    (ExceptT.mk (sync (m := Session) draft)).run.on failing d
      = if failing = some .sync then (.error broken, d) else (.ok (), d) :=
  change_eq .sync .ok rfl failing

/-- The draft gets the permissions of the file; they are looked up while the draft is there. -/
theorem keepPermissions_eq (held : d.Holds path l bytes mode) (free : d.lookup? draft = none)
    (e : Entry) (failing : Option StorageStep) :
    (keepPermissions (m := Session) draft path).run.on failing (d.insert draft e)
      = if failing = some .setPermissions then (.error broken, d.insert draft e)
        else (.ok (), d.insert draft (e.withMode mode)) := by
  have told : (permissions? path : Session (Option Nat)).on failing (d.insert draft e)
      = (some mode, d.insert draft e) := by
    change (((d.insert draft e).at? path).map Entry.mode, d.insert draft e) = _
    rw [(held.beside free e).at?_path]
    rfl
  rw [keepPermissions, on_bind_ok (on_lift told)]
  exact change_eq .setPermissions _ (setMode_draft d draft e mode) failing

/-- The draft takes the place of the file, or is left where it is. -/
theorem rename_eq (held : d.Holds path l bytes mode) (free : d.lookup? draft = none) (e : Entry)
    (failing : Option StorageStep) :
    (ExceptT.mk (rename (m := Session) draft path)).run.on failing (d.insert draft e)
      = if failing = some .rename then (.error broken, d.insert draft e) else (.ok (), d.insert l e) :=
  change_eq .rename _ (rename_draft held free e) failing

/-- Does the step complete a draft, or put it in the place of a file? -/
def completes : StorageStep → Bool
  | .read | .create => false
  | .write _ | .sync | .setPermissions | .rename => true

/-- **The last steps**: the draft is filled and takes the place of the file; when one fails,
    something is left of the draft.  What is left depends on the step, and does not matter, since
    it is removed. -/
theorem finish_eq (held : d.Holds path l bytes mode) (free : d.lookup? draft = none) (old : Entry)
    (text : Text) (failing : Option StorageStep) :
    ∃ left, (finish (m := Session) draft path text).run.on failing (d.insert draft old)
      = if failing.any completes then (.error broken, d.insert draft left)
        else (.ok (), d.insert l (.file text.utf8 mode)) := by
  have synced := sync_eq (d.insert draft (.file text.utf8 old.mode)) draft failing
  have kept := keepPermissions_eq held free (.file text.utf8 old.mode) failing
  have renamed := rename_eq held free (.file text.utf8 mode) failing
  rw [finish]
  -- the steps in their order, up to the one that fails
  rcases write_eq d draft old text failing with ⟨stored, w, torn⟩ | ⟨w, written⟩
  · refine ⟨.file (text.utf8.extract 0 stored) old.mode, ?_⟩
    rw [on_bind_error torn, if_pos (by simp [w, completes])]
  rw [on_bind_ok written]
  by_cases s : failing = some .sync
  · rw [if_pos s] at synced
    refine ⟨.file text.utf8 old.mode, ?_⟩
    rw [on_bind_error synced, if_pos (by simp [s, completes])]
  rw [if_neg s] at synced
  rw [on_bind_ok synced]
  by_cases p : failing = some .setPermissions
  · rw [if_pos p] at kept
    refine ⟨.file text.utf8 old.mode, ?_⟩
    rw [on_bind_error kept, if_pos (by simp [p, completes])]
  rw [if_neg p] at kept
  rw [on_bind_ok kept]
  refine ⟨.file text.utf8 mode, ?_⟩
  -- the draft is complete, and either takes the place of the file or is all that is left
  by_cases r : failing = some .rename
  · rw [if_pos r] at renamed
    rw [if_pos (by simp [r, completes])]
    exact renamed
  · rw [if_neg r] at renamed
    have none_fails : failing.any completes = false := by
      rcases failing with _ | step
      · rfl
      · cases step with
        | read | create => rfl
        | write stored => exact absurd rfl (w stored)
        | sync => exact absurd rfl s
        | setPermissions => exact absurd rfl p
        | rename => exact absurd rfl r
    rw [none_fails]
    exact renamed

/-- **A replacement for which a draft can be made** succeeds unless one of its steps is made to
    fail.  Then the draft is removed, and the disk is what it was before. -/
theorem replace_eq (held : d.Holds path l bytes mode) (free : d.lookup? draft = none) {e : Entry}
    (made : d.create (directoryOf path) = .ok (draft, d.insert draft e)) (text : Text)
    (failing : Option StorageStep) :
    (replace (m := Session) path text).on failing d
      = if failing = some .create ∨ failing.any completes then (.error broken, d)
        else (.ok (), d.insert l (.file text.utf8 mode)) := by
  have created := step_eq .create (·.create (directoryOf path)) made failing
  rw [replace, on_bind]
  -- without a draft nothing was done
  by_cases c : failing = some .create
  · rw [if_pos c] at created
    have first : (create (m := Session) (directoryOf path)).on failing d = (.error broken, d) := created
    rw [first, if_pos (.inl c)]
    rfl
  rw [if_neg c] at created
  have first : (create (m := Session) (directoryOf path)).on failing d
      = (.ok draft, d.insert draft e) := created
  obtain ⟨left, last⟩ := finish_eq held free e text failing
  rw [first]
  simp only [on_bind]
  by_cases f : failing.any completes = true
  · -- what is left of the draft is removed
    have either : failing = some .create ∨ failing.any completes = true := .inr f
    have removed : (discard (m := Session) draft).on failing (d.insert draft left) = ((), d) := by
      change ((), (d.insert draft left).erase draft) = _
      rw [erase_insert free]
    rw [if_pos f] at last
    rw [last, if_pos either]
    simp only [Except.isOk, Except.toBool, Bool.false_eq_true, if_false, on_bind]
    rw [removed]
    rfl
  · have neither : ¬(failing = some .create ∨ failing.any completes = true) := fun h => h.elim c f
    rw [if_neg f] at last
    rw [last, if_neg neither]
    rfl

/-- **The steps of a replacement** are all but the reading. -/
theorem any_completes_iff {failing : Option StorageStep} :
    (failing = some .create ∨ failing.any completes = true)
      ↔ ∃ step, failing = some step ∧ step ≠ .read := by
  rcases failing with _ | step
  · simp
  · cases step <;> simp [completes]

/-- **What keeps a file from being replaced**: no draft can be made beside it, or a step fails. -/
def Blocked (path : Text) (failing : Option StorageStep) (d : Disk) : Prop :=
  (∃ fault, d.create (directoryOf path) = .error fault) ∨ ∃ step, failing = some step ∧ step ≠ .read

/-- **All or nothing**: something keeps the file from being replaced, and the disk stays as it
    was; or the file holds the new text, with the permissions it had. -/
theorem replace_outcome (held : d.Holds path l bytes mode) (text : Text)
    (failing : Option StorageStep) :
    (Blocked path failing d ∧
      ∃ fault, (replace (m := Session) path text).on failing d = (.error fault, d)) ∨
    (¬Blocked path failing d ∧
      (replace (m := Session) path text).on failing d = (.ok (), d.insert l (.file text.utf8 mode))) := by
  rcases create_cases d (directoryOf path) with ⟨fault, unmade⟩ | ⟨draft, free, made⟩
  · -- without a draft there is nothing to do and nothing to remove
    obtain ⟨told, failed⟩ := step_error .create (·.create (directoryOf path)) unmade failing
    have first : (create (m := Session) (directoryOf path)).on failing d = (.error told, d) := failed
    refine .inl ⟨.inl ⟨fault, unmade⟩, told, ?_⟩
    rw [replace, on_bind, first]
    rfl
  · have outcome := replace_eq held free made text failing
    split at outcome
    · next fails => exact .inl ⟨.inr (any_completes_iff.1 fails), broken, outcome⟩
    · next works =>
      refine .inr ⟨?_, outcome⟩
      rintro (⟨fault, unmade⟩ | fails)
      · rw [made] at unmade
        cases unmade
      · exact works (any_completes_iff.2 fails)

end Storage

end XmlGraft
