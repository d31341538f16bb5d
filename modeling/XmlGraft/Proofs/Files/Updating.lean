/-
  Updating — a change of a file is carried out in full, or not at all.

  The file is read, the change is worked out from its text, and the file is replaced if the text is
  another one.  Each of the three can end it, and so can any step on the disk.  The change is any
  function of the text; nothing of what an update does to a document is used here.

  1. **Reading** (`fileText_eq`, `fileText_error`, `fileText_cases`): the text of the file, and
     nothing else happens.

  2. **Committing** (`commit_unchanged`, `commit_replaced`, `commit_blocked`): nothing is written
     when nothing changed.

  3. **Obstacles** (`Obstacle`): what can stand in the way, in the order in which it is met.  Behind
     a file that was read and a change that was worked out, only the replacement is left to fail
     (`Obstacle.blocked`).

  4. **All or nothing** (`updateFile_outcome`): an obstacle and the old disk, or no obstacle and the
     report, with the old disk when nothing changed and with the new text in the file when something
     did.

  That the new text is whole is seen from the disk and not from the steps: a step may fail with a
  part of the text written, but then the part is in a draft, and the draft is gone.
-/
import XmlGraft.Files.Update
import XmlGraft.Proofs.Files.Replacing

namespace XmlGraft

open Session Disk

variable {d : Disk} {file text : Text}

/-! ## Reading -/

/-- The text of a file is read, unless this step is the one that fails. -/
theorem fileText_eq (held : d.readText file = .ok text) (failing : Option StorageStep) :
    (fileText file : ExceptT Failure Session Text).run.on failing d
      = (if failing = some .read then .error (.unreadable file broken) else .ok text, d) := by
  have read := Storage.read_eq held failing
  by_cases r : failing = some .read
  · rw [if_pos r] at read
    rw [fileText, on_bind_ok (on_lift read), if_pos r]
    rfl
  · rw [if_neg r] at read
    rw [fileText, on_bind_ok (on_lift read), if_neg r]
    rfl

/-- Without a text there is nothing to read, and the fault names the file. -/
theorem fileText_error {fault : FileFault} (none : d.readText file = .error fault)
    (failing : Option StorageStep) :
    ∃ told, (fileText file : ExceptT Failure Session Text).run.on failing d
      = (.error (.unreadable file told), d) := by
  obtain ⟨told, failed⟩ := Storage.read_error none failing
  refine ⟨told, ?_⟩
  rw [fileText, on_bind_ok (on_lift failed)]
  rfl

/-- The text of a file is read, or nothing happens. -/
theorem fileText_cases (file : Text) (failing : Option StorageStep) (d : Disk) :
    (∃ fault, (fileText file : ExceptT Failure Session Text).run.on failing d = (.error fault, d)) ∨
      ∃ text, d.readText file = .ok text ∧
        (fileText file : ExceptT Failure Session Text).run.on failing d = (.ok text, d) := by
  cases held : d.readText file with
  | error fault =>
    obtain ⟨told, failed⟩ := fileText_error held failing
    exact .inl ⟨_, failed⟩
  | ok text =>
    have read := fileText_eq held failing
    -- reading is a step as well, and may be the one that fails
    split at read
    · exact .inl ⟨_, read⟩
    · exact .inr ⟨text, rfl, read⟩

/-! ## Committing -/

section

variable {failing : Option StorageStep} {u : Updated}

/-- What is the same is not written. -/
theorem commit_unchanged (same : u.report.changed = false) (failing : Option StorageStep) (d : Disk) :
    (commit file u : ExceptT Failure Session Report).run.on failing d = (.ok u.report, d) := by
  rw [commit, same]
  rfl

/-- A change is reported when the file was replaced. -/
theorem commit_replaced {d' : Disk} (changed : u.report.changed = true)
    (written : (Storage.replace (m := Session) file u.text).on failing d = (.ok (), d')) :
    (commit file u : ExceptT Failure Session Report).run.on failing d = (.ok u.report, d') := by
  have replaced : (replaceFile file u.text : ExceptT Failure Session Unit).run.on failing d
      = (.ok (), d') := by
    rw [replaceFile, on_bind_ok (on_lift written)]
    rfl
  rw [commit, changed]
  exact on_bind_ok replaced

/-- A change that cannot be stored is a failure, which names the file. -/
theorem commit_blocked {fault : FileFault} {d' : Disk} (changed : u.report.changed = true)
    (failed : (Storage.replace (m := Session) file u.text).on failing d = (.error fault, d')) :
    (commit file u : ExceptT Failure Session Report).run.on failing d
      = (.error (.unwritable file fault), d') := by
  have blocked : (replaceFile file u.text : ExceptT Failure Session Unit).run.on failing d
      = (.error (.unwritable file fault), d') := by
    rw [replaceFile, on_bind_ok (on_lift failed)]
    rfl
  rw [commit, changed]
  exact on_bind_error blocked

end

/-! ## All or nothing -/

/-- **What stands in the way of a change.** -/
inductive Obstacle (change : Change) (file : Text) (failing : Option StorageStep) (d : Disk) : Prop
  /-- The file has no text, or is not there. -/
  | unreadable (fault : FileFault) (none : d.readText file = .error fault)
  /-- The reading is the step that fails. -/
  | unread (fails : failing = some .read)
  /-- Nothing can be made of the text. -/
  | refused (text : Text) (fault : Failure) (held : d.readText file = .ok text)
      (refuses : change text = .error fault)
  /-- The new text is another one and cannot be stored. -/
  | unwritable (text : Text) (u : Updated) (held : d.readText file = .ok text)
      (came : change text = .ok u) (changed : u.report.changed = true)
      (blocked : Storage.Blocked file failing d)

/-- **All or nothing**: what a change of a file comes to, by its result and the disk that it leaves. -/
inductive AllOrNothing (change : Change) (file : Text) (failing : Option StorageStep) (d : Disk) :
    Except Failure Report × Disk → Prop
  /-- Something stands in the way, and the disk is as it was, without a draft. -/
  | failed (fault : Failure) (why : Obstacle change file failing d) :
      AllOrNothing change file failing d (.error fault, d)
  /-- Nothing changed and nothing is written: none of the steps that write is taken, for it would make
      no difference if one of them failed. -/
  | kept (text : Text) (u : Updated) (clear : ¬Obstacle change file failing d)
      (held : d.readText file = .ok text) (came : change text = .ok u)
      (same : u.report.changed = false)
      (idle : ∀ step, step ≠ .read →
        (updateFile change file : ExceptT Failure Session Report).run.on (some step) d
          = (.ok u.report, d)) :
      AllOrNothing change file failing d (.ok u.report, d)
  /-- The file holds the text that was made of its own, with the permissions it had, and everything else
      is as it was. -/
  | replaced (l : Trail) (bytes : ByteArray) (mode : Nat) (text : Text) (u : Updated) (d' : Disk)
      (clear : ¬Obstacle change file failing d)
      (there : d.Holds file l bytes mode) (own : Text.ofUtf8? bytes = some text)
      (came : change text = .ok u) (changed : u.report.changed = true)
      (holds : d'.Holds file l u.text.utf8 mode)
      (home : d'.home = d.home) (others : ∀ k, k ≠ l → d'.lookup? k = d.lookup? k) :
      AllOrNothing change file failing d (.ok u.report, d')

section

variable {change : Change} {failing : Option StorageStep} {u : Updated}

/-- Once the change is worked out, it is to be committed. -/
theorem updateFile_of_came (held : d.readText file = .ok text) (readable : failing ≠ some .read)
    (came : change text = .ok u) :
    (updateFile change file : ExceptT Failure Session Report).run.on failing d
      = (commit file u : ExceptT Failure Session Report).run.on failing d := by
  have read := fileText_eq held failing
  rw [if_neg readable] at read
  rw [updateFile, on_bind_ok read, came]
  exact on_bind_ok rfl

/-- When nothing can be made of the text, that is the failure, and nothing is written. -/
theorem updateFile_of_refused {fault : Failure} (held : d.readText file = .ok text)
    (readable : failing ≠ some .read) (refuses : change text = .error fault) :
    (updateFile change file : ExceptT Failure Session Report).run.on failing d
      = (.error (fault.inFile file), d) := by
  have read := fileText_eq held failing
  rw [if_neg readable] at read
  rw [updateFile, on_bind_ok read, refuses]
  exact on_bind_error rfl

/-- Without an obstacle before it, the change of a file that can be read is all that counts. -/
theorem Obstacle.blocked (o : Obstacle change file failing d) (held : d.readText file = .ok text)
    (readable : failing ≠ some .read) (came : change text = .ok u) :
    u.report.changed = true ∧ Storage.Blocked file failing d := by
  cases o with
  | unreadable fault none =>
    rw [held] at none
    cases none
  | unread fails => exact absurd fails readable
  | refused text' fault held' refuses =>
    rw [held] at held'
    cases held'
    rw [came] at refuses
    cases refuses
  | unwritable text' u' held' came' changed blocked =>
    rw [held] at held'
    cases held'
    rw [came] at came'
    cases came'
    exact ⟨changed, blocked⟩

end

/-- **A change of a file is carried out in full, or not at all**: that of a route
    (`Change.ofRoute`), that of a plugin (`Change.ofPlugin`) and every other, on every disk and
    whichever step fails.  By cases in the order of the steps: reading, working out, storing. -/
theorem updateFile_outcome (change : Change) (file : Text) (failing : Option StorageStep) (d : Disk) :
    AllOrNothing change file failing d
      ((updateFile change file : ExceptT Failure Session Report).run.on failing d) := by
  cases held : d.readText file with
  | error fault =>
    obtain ⟨told, unread⟩ := fileText_error held failing
    rw [updateFile, on_bind_error unread]
    exact .failed _ (.unreadable fault held)
  | ok text =>
    by_cases readable : failing = some .read
    · have read := fileText_eq held failing
      rw [if_pos readable] at read
      rw [updateFile, on_bind_error read]
      exact .failed _ (.unread readable)
    -- the text was read, so what remains to fail is the change and then the disk
    cases came : change text with
    | error fault =>
      rw [updateFile_of_refused held readable came]
      exact .failed _ (.refused text fault held came)
    | ok u =>
      rw [updateFile_of_came held readable came]
      cases changed : u.report.changed with
      | false =>
        rw [commit_unchanged changed]
        -- nothing changed, so no step that writes is taken, whichever of them would fail
        refine .kept text u (fun o => ?_) held came changed fun step writes => ?_
        · have := (o.blocked held readable came).1
          rw [changed] at this
          cases this
        · have readable' : some step ≠ some StorageStep.read := fun h => writes (Option.some.inj h)
          rw [updateFile_of_came held readable' came, commit_unchanged changed]
      | true =>
        obtain ⟨l, bytes, mode, there, own⟩ := exists_holds held
        rcases Storage.replace_outcome there u.text failing with ⟨blocked, fault, failed⟩ | ⟨clear, written⟩
        · rw [commit_blocked changed failed]
          exact .failed _ (.unwritable text u held came changed blocked)
        · rw [commit_replaced changed written]
          refine .replaced l bytes mode text u _ (fun o => clear (o.blocked held readable came).2)
            there own came changed (there.insert u.text.utf8 mode) rfl fun k other => ?_
          rw [lookup?_insert, if_neg other]

end XmlGraft
