/-
  DryRun — a dry run shows what the command would write.

  The two modes go separate ways.  A dry run reads the file, works the change out and shows the new
  text; otherwise `updateFile` reads the file, works the change out and writes it.

  1. **One preview** (`run_of_dryRun`, `run_of_write`): both ways begin with the same reading of the
     settings and of the file, and with the same change; then one shows it and one writes it.

  2. **On a disk** (`preview_cases`): the preview leaves the disk alone, and is made of the text of
     the file or fails before there is one.

  3. **Writing** (`commit_cases`): afterwards the file holds the new text, also when it was that
     text already and nothing is written.  A failure leaves the disk as it was.  What tells whether
     anything has to be written is the report, so it has to be truthful (`Change.Truthful`).

  4. **Agreement** (`runJob_agree`): the runs succeed with the same text and report, or fail with
     the same fault, unless the text cannot be stored.  Their markers may be different ones, as long
     as both serve: no marker is left in what they come to (`Prepares.alike`).

  5. **Command lines** (`dryRun_agrees`): so do those of a command, `set` or `plugin`.  Each command
     that is accepted has two such lines (`exists_agreeing_lines`), so that none of this is about
     nothing.
-/
import XmlGraft.Command.Run
import XmlGraft.Proofs.Command.Modes
import XmlGraft.Proofs.Files.Updating
import XmlGraft.Proofs.Graft.Prepared

namespace XmlGraft

open Markup

/-! ## One preview -/

namespace Job

section

variable {m : Type → Type} [Monad m] [Storage m]

/-- **What the job makes of its file.** -/
def preview (job : Job) (markers : Nat → Text) : ExceptT Failure m Updated := do
  previewFile (job.change (← settings job.manner) markers) job.file

variable [LawfulMonad m]

/-- A change carried out is the one that is shown, written. -/
theorem updateFile_eq (change : Change) (file : Text) :
    (updateFile change file : ExceptT Failure m Report) = previewFile change file >>= commit file := by
  rw [updateFile, previewFile]
  simp only [bind_assoc]

/-- A dry run shows what the job makes of its file, with the report behind it. -/
theorem run_of_dryRun {job : Job} (dry : job.manner.dryRun = true) (markers : Nat → Text) :
    (job.run markers : ExceptT Failure m Text)
      = job.preview markers >>= fun u => pure (u.text ++ shownReport job.manner u.report) := by
  rw [run, preview]
  simp only [dry, if_true, bind_assoc]

/-- Otherwise what the job makes of its file is written, and the report is shown alone. -/
theorem run_of_write {job : Job} (dry : job.manner.dryRun = false) (markers : Nat → Text) :
    (job.run markers : ExceptT Failure m Text)
      = job.preview markers >>= fun u =>
        commit job.file u >>= fun r => pure (shownReport job.manner r) := by
  rw [run, preview]
  simp only [dry, Bool.false_eq_true, if_false, bind_assoc, updateFile_eq]

end

end Job

/-! ## On a disk -/

section

open Session

variable {failing : Option StorageStep} {d : Disk}

/-- The settings are read, and the disk stays as it is. -/
theorem settings_on (manner : Manner) (failing : Option StorageStep) (d : Disk) :
    ∃ result, (Job.settings manner : ExceptT Failure Session Settings).run.on failing d = (result, d) := by
  -- a settings file is read like any other, and what it says does not touch the disk
  have load (file : Text) : ∃ result,
      (Settings.load file : ExceptT Failure Session Settings).run.on failing d = (result, d) := by
    rw [Settings.load]
    rcases fileText_cases file failing d with ⟨fault, failed⟩ | ⟨text, -, read⟩
    · exact ⟨.error fault, on_bind_error failed⟩
    · rw [on_bind_ok read]
      cases Settings.ofToml text with
      | ok s => exact ⟨.ok s, rfl⟩
      | error fault => exact ⟨_, rfl⟩
  rw [Job.settings]
  cases manner.settings with
  | none => exact ⟨.ok (if manner.inferUnit then { Settings.standard with inferUnit := true }
      else .standard), rfl⟩
  | some file =>
    obtain ⟨result, loaded⟩ := load file
    cases result with
    | error fault => exact ⟨.error fault, on_bind_error loaded⟩
    | ok s =>
      simp only [on_bind_ok loaded]
      exact ⟨.ok (if manner.inferUnit then { s with inferUnit := true } else s), rfl⟩

/-- **What a job makes of its file** is made of the text of the file, or it fails before there is one;
    either way the disk stays as it is. -/
theorem preview_cases (job : Job) (failing : Option StorageStep) (d : Disk) :
    (∃ fault, ∀ markers, (job.preview markers : ExceptT Failure Session Updated).run.on failing d
        = (.error fault, d)) ∨
      ∃ s text, d.readText job.file = .ok text ∧ ∀ markers,
        (job.preview markers : ExceptT Failure Session Updated).run.on failing d
          = ((job.change s markers text).mapError (Failure.inFile job.file), d) := by
  obtain ⟨result, chosen⟩ := settings_on job.manner failing d
  cases result with
  | error fault => exact .inl ⟨fault, fun markers => on_bind_error chosen⟩
  | ok s =>
    rcases fileText_cases job.file failing d with ⟨fault, failed⟩ | ⟨text, held, read⟩
    · refine .inl ⟨fault, fun markers => ?_⟩
      rw [Job.preview, on_bind_ok chosen, previewFile, on_bind_error failed]
    · -- the settings and the text are read; only the change is still to come, and it asks for no
      -- disk
      refine .inr ⟨s, text, held, fun markers => ?_⟩
      rw [Job.preview, on_bind_ok chosen, previewFile, on_bind_ok read]
      rfl

theorem runJob_ok {job : Job} {markers : Nat → Text} {out : Text} {d' : Disk}
    (came : (job.run markers : ExceptT Failure Session Text).run.on failing d = (.ok out, d')) :
    (runJob (.ok job) markers : Session Outcome).on failing d = (.success out, d') := by
  rw [runJob, on_bind, came]
  rfl

theorem runJob_error {job : Job} {markers : Nat → Text} {fault : Failure} {d' : Disk}
    (came : (job.run markers : ExceptT Failure Session Text).run.on failing d = (.error fault, d')) :
    (runJob (.ok job) markers : Session Outcome).on failing d = (.failed (.failure fault), d') := by
  rw [runJob, on_bind, came]
  rfl

end

/-! ## Agreement -/

/-- **A dry run and a write run agree**, by what each one shows and by the disk it leaves. -/
inductive Agree (file : Text) (manner : Manner) (failing : Option StorageStep) (disk : Disk)
    (dry write : Outcome × Disk) : Prop
  /-- The dry run shows the text that the file holds after the write run, and both show the same
      report.  When nothing changed, nothing is written. -/
  | succeed (u : Updated)
      (shown : dry = (.success (u.text ++ Job.shownReport manner u.report), disk))
      (reported : write.1 = .success (Job.shownReport manner u.report))
      (holds : write.2.readText file = .ok u.text)
      (untouched : u.report.changed = false → write.2 = disk)
  /-- Both fail with the same fault, and the disk stays as it is. -/
  | fail (fault : CommandFault) (refused : dry = (.failed fault, disk))
      (failed : write = (.failed fault, disk))
  /-- The new text that the dry run shows cannot be stored.  The write run says so, and the disk stays
      as it is. -/
  | unstored (u : Updated) (fault : FileFault)
      (shown : dry = (.success (u.text ++ Job.shownReport manner u.report), disk))
      (changed : u.report.changed = true)
      (blocked : (Storage.replace file u.text : Session _).on failing disk = (.error fault, disk))
      (failed : write = (.failed (.failure (.unwritable file fault)), disk))

/-- The job in another mode. -/
def Job.withDryRun (dry : Bool) (job : Job) : Job := { job with manner := job.manner.withDryRun dry }

/-- **A change says whether the text is another one.** -/
def Change.Truthful (change : Change) : Prop :=
  ∀ text u, change text = .ok u → u.report.changed = (u.text != text)

section

open Session

variable {job : Job} {failing : Option StorageStep} {disk : Disk} {markers markers' : Nat → Text}

/-- **What the write run makes of a change**: it writes the text, unless it is the one that is there. -/
theorem commit_cases {u : Updated} {text : Text} (held : disk.readText job.file = .ok text)
    (truthful : u.report.changed = (u.text != text)) (failing : Option StorageStep) :
    (∃ disk', (commit job.file u : ExceptT Failure Session Report).run.on failing disk
        = (.ok u.report, disk') ∧
      disk'.readText job.file = .ok u.text ∧ (u.report.changed = false → disk' = disk)) ∨
    ∃ fault, u.report.changed = true ∧
      (Storage.replace job.file u.text : Session _).on failing disk = (.error fault, disk) ∧
      (commit job.file u : ExceptT Failure Session Report).run.on failing disk
        = (.error (.unwritable job.file fault), disk) := by
  cases changed : u.report.changed with
  | false =>
    rw [changed] at truthful
    have same : u.text = text := by simpa using truthful.symm
    exact .inl ⟨disk, commit_unchanged changed failing disk, by rw [same, held], fun _ => rfl⟩
  | true =>
    obtain ⟨l, bytes, mode, there, -⟩ := Disk.exists_holds held
    rcases Storage.replace_outcome there u.text failing with ⟨-, fault, failed⟩ | ⟨-, written⟩
    · exact .inr ⟨fault, rfl, failed, commit_blocked changed failed⟩
    · exact .inl ⟨_, commit_replaced changed written, (there.insert u.text.utf8 mode).readText,
        fun unchanged => by cases unchanged⟩

/-! A run in either mode, by what the job makes of its file. -/

/-- Without a preview both modes fail alike, before they go separate ways. -/
theorem run_of_preview_error {fault : Failure} (dry : Bool)
    (failed : (job.preview markers : ExceptT Failure Session Updated).run.on failing disk
      = (.error fault, disk)) :
    (runJob (.ok (job.withDryRun dry)) markers : Session Outcome).on failing disk
      = (.failed (.failure fault), disk) := by
  refine runJob_error ?_
  cases dry with
  | true =>
    rw [Job.run_of_dryRun rfl]
    exact on_bind_error failed
  | false =>
    rw [Job.run_of_write rfl]
    exact on_bind_error failed

/-- The dry run shows the preview and leaves the disk as it is. -/
theorem run_of_preview {u : Updated}
    (came : (job.preview markers : ExceptT Failure Session Updated).run.on failing disk = (.ok u, disk)) :
    (runJob (.ok (job.withDryRun true)) markers : Session Outcome).on failing disk
      = (.success (u.text ++ Job.shownReport job.manner u.report), disk) := by
  refine runJob_ok ?_
  rw [Job.run_of_dryRun rfl]
  exact on_bind_ok came

/-- The write run reports what was written. -/
theorem run_of_commit {u : Updated} {r : Report} {disk' : Disk}
    (came : (job.preview markers : ExceptT Failure Session Updated).run.on failing disk = (.ok u, disk))
    (written : (commit job.file u : ExceptT Failure Session Report).run.on failing disk = (.ok r, disk')) :
    (runJob (.ok (job.withDryRun false)) markers : Session Outcome).on failing disk
      = (.success (Job.shownReport job.manner r), disk') := by
  refine runJob_ok ?_
  rw [Job.run_of_write rfl]
  -- the preview leaves the disk as it was read, and what is committed starts there
  exact (on_bind_ok came).trans (on_bind_ok written)

/-- The write run fails when the new text cannot be stored. -/
theorem run_of_commit_error {u : Updated} {fault : Failure}
    (came : (job.preview markers : ExceptT Failure Session Updated).run.on failing disk = (.ok u, disk))
    (failed : (commit job.file u : ExceptT Failure Session Report).run.on failing disk
      = (.error fault, disk)) :
    (runJob (.ok (job.withDryRun false)) markers : Session Outcome).on failing disk
      = (.failed (.failure fault), disk) := by
  refine runJob_error ?_
  rw [Job.run_of_write rfl]
  exact (on_bind_ok came).trans (on_bind_error failed)

/-- **The two runs of a job agree.**  By cases in the order in which a run can end: before there
    is a text, with a change that is refused, with a text that is stored, or with one that cannot
    be. -/
theorem runJob_agree (truthful : ∀ s, (job.change s markers').Truthful)
    (alike : ∀ s text, disk.readText job.file = .ok text →
      job.change s markers text = job.change s markers' text) :
    Agree job.file job.manner failing disk
      ((runJob (.ok (job.withDryRun true)) markers : Session Outcome).on failing disk)
      ((runJob (.ok (job.withDryRun false)) markers' : Session Outcome).on failing disk) := by
  rcases preview_cases job failing disk with ⟨fault, failed⟩ | ⟨s, text, held, came⟩
  · exact .fail (.failure fault) (run_of_preview_error true (failed markers))
      (run_of_preview_error false (failed markers'))
  · have dry := came markers
    have write := came markers'
    rw [alike s text held] at dry
    cases done : job.change s markers' text with
    | error fault =>
      rw [done] at dry write
      exact .fail (.failure (fault.inFile job.file)) (run_of_preview_error true dry)
        (run_of_preview_error false write)
    | ok u =>
      rw [done] at dry write
      rcases commit_cases held (truthful s text u done) failing with
        ⟨disk', written, holds, untouched⟩ | ⟨fault, changed, blocked, failed⟩
      · have outcome := run_of_commit write written
        exact .succeed u (run_of_preview dry) (by rw [outcome]) (by rw [outcome]; exact holds)
          (by rw [outcome]; exact untouched)
      · exact .unstored u fault (run_of_preview dry) changed blocked (run_of_commit_error write failed)

end

/-! ## Command lines -/

/-- **Changes that prepare** and then finish, of which only the second half asks for settings and
    markers. -/
structure Prepares (change : Settings → (Nat → Text) → Change)
    (prepare : Text → Except Failure Prepared) : Prop where
  finish : ∀ s markers text, change s markers text = prepare text >>= fun p => p.finish s markers
  source : ∀ text p, prepare text = .ok p → p.document.source.text = text

theorem prepares_ofRoute (route : Route) (fields : Fields) :
    Prepares (Change.ofRoute route fields) (Prepared.ofRoute route fields) where
  finish s markers text := update_eq_finish text route fields s markers
  source _ _ := Prepared.source_ofRoute

theorem prepares_ofPlugin (u : Maven.PluginUpdate) :
    Prepares (Change.ofPlugin u) (Prepared.ofPlugin u) where
  finish s markers text := u.apply_eq_finish text s markers
  source _ _ := Prepared.source_ofPlugin

namespace Prepares

variable {change : Settings → (Nat → Text) → Change} {prepare : Text → Except Failure Prepared}

/-- What is prepared comes from the text, and the report compares the result with it. -/
theorem truthful (h : Prepares change prepare) (s : Settings) (markers : Nat → Text) :
    (change s markers).Truthful := by
  intro text u done
  rw [h.finish] at done
  obtain ⟨p, prepared, finished⟩ := exists_of_bind done
  rw [Prepared.changed_of_finish finished, h.source text p prepared]

/-- **Markers that serve** make no difference, since all that is left of a marker is where it
    stood. -/
theorem alike (h : Prepares change prepare) {markers markers' : Nat → Text} {text : Text}
    (served : ∀ p, prepare text = .ok p → Graft.Served p.document p.target markers ∧
      Graft.Served p.document p.target markers') (s : Settings) :
    change s markers text = change s markers' text := by
  rw [h.finish, h.finish]
  cases prepared : prepare text with
  | error => rfl
  | ok p =>
    -- both supplies serve for the one document that is prepared
    obtain ⟨first, second⟩ := served p prepared
    exact Prepared.finish_congr first second s

end Prepares

namespace Invocation

/-- What a command prepares in a text. -/
def prepared? (text : Text) : Invocation → Option Prepared
  | version => none
  | set _ path assignments _ => do
    let route ← (Route.ofText? path).toOption
    let fields ← (Job.fields assignments).toOption
    (Prepared.ofRoute route fields text).toOption
  | plugin _ coordinates assignments deployments _ => do
    let application ← (Job.fields? assignments).toOption
    let deployment ← (Job.fields? deployments).toOption
    (Prepared.ofPlugin ⟨coordinates, application, deployment⟩ text).toOption

/-- **A supply of markers that serves** for what a command prepares in a text. -/
def Served (inv : Invocation) (text : Text) (markers : Nat → Text) : Prop :=
  ∀ p, inv.prepared? text = some p → Graft.Served p.document p.target markers

/-- The job of a command. -/
def job? : Invocation → Option (Except CommandFault Job)
  | version => none
  | set file path assignments manner => some (Job.ofSet file path assignments manner)
  | plugin file coordinates assignments deployments manner =>
    some (Job.ofPlugin file coordinates assignments deployments manner)

theorem run_of_job? {inv : Invocation} {job : Except CommandFault Job} (h : inv.job? = some job)
    (markers : Nat → Text) : (inv.run markers : Session Outcome) = runJob job markers := by
  cases inv with
  | version => cases h
  | set => cases h; rfl
  | plugin => cases h; rfl

/-- **A command makes one job in either mode**, or the same fault. -/
theorem job?_cases {inv : Invocation} {file : Text} {manner : Manner}
    (about : inv.work? = some (file, manner)) :
    (∃ fault, ∀ dry, (inv.withDryRun dry).job? = some (.error fault)) ∨
      ∃ (job : Job) (prepare : Text → Except Failure Prepared), job.file = file ∧ job.manner = manner ∧
        (∀ dry, (inv.withDryRun dry).job? = some (.ok (job.withDryRun dry))) ∧
        Prepares job.change prepare ∧ ∀ text, inv.prepared? text = (prepare text).toOption := by
  cases inv with
  | version => cases about
  | set file path assignments manner =>
    cases about
    -- what the arguments ask for is read in both modes alike, and so are their faults
    cases given : Route.ofText? path with
    | error fault =>
      refine .inl ⟨.failure (.target fault), fun dry => ?_⟩
      rw [withDryRun, job?, Job.ofSet, given]
      rfl
    | ok route =>
      cases valued : Job.fields assignments with
      | error fault =>
        refine .inl ⟨fault, fun dry => ?_⟩
        rw [withDryRun, job?, Job.ofSet, given, valued]
        rfl
      | ok fields =>
        refine .inr ⟨⟨file, Change.ofRoute route fields, manner⟩, Prepared.ofRoute route fields, rfl,
          rfl, fun dry => ?_, prepares_ofRoute route fields, fun text => ?_⟩
        · rw [withDryRun, job?, Job.ofSet, given, valued]
          rfl
        · rw [prepared?, given, valued]
          rfl
  | plugin file coordinates assignments deployments manner =>
    cases about
    cases valued : Job.fields? assignments with
    | error fault =>
      refine .inl ⟨fault, fun dry => ?_⟩
      rw [withDryRun, job?, Job.ofPlugin, valued]
      rfl
    | ok application =>
      cases deployed : Job.fields? deployments with
      | error fault =>
        refine .inl ⟨fault, fun dry => ?_⟩
        rw [withDryRun, job?, Job.ofPlugin, valued, deployed]
        rfl
      | ok deployment =>
        refine .inr ⟨⟨file, Change.ofPlugin ⟨coordinates, application, deployment⟩, manner⟩,
          Prepared.ofPlugin ⟨coordinates, application, deployment⟩, rfl, rfl, fun dry => ?_,
          prepares_ofPlugin _, fun text => ?_⟩
        · rw [withDryRun, job?, Job.ofPlugin, valued, deployed]
          rfl
        · rw [prepared?, valued, deployed]
          rfl

end Invocation

/-- A line that is accepted runs the command that it asks for. -/
theorem execute_of_accepted {line : List Text} {inv : Invocation}
    (accepted : Invocation.ofArguments line = .ok inv) (markers : Nat → Text) :
    (execute line markers : Session Outcome) = inv.run markers := by
  rw [execute, accepted]

namespace Invocation

/-- **The two runs of a command agree**: what it asks for fails in both with the same fault, or it is
    one job, which both carry out.  A command prepares the same change in either mode, so markers that
    serve for what it prepares serve for both. -/
theorem run_agree {inv : Invocation} {file : Text} {manner : Manner}
    (about : inv.work? = some (file, manner)) {disk : Disk} {failing : Option StorageStep}
    {markers markers' : Nat → Text}
    (supplied : markers = markers' ∨ ∀ text, disk.readText file = .ok text →
      inv.Served text markers ∧ inv.Served text markers') :
    Agree file manner failing disk
      (((inv.withDryRun true).run markers : Session Outcome).on failing disk)
      (((inv.withDryRun false).run markers' : Session Outcome).on failing disk) := by
  rcases job?_cases about with ⟨fault, unfit⟩ | ⟨job, prepare, rfl, rfl, fit, prepares, prepared⟩
  · rw [run_of_job? (unfit true), run_of_job? (unfit false)]
    exact .fail fault rfl rfl
  · rw [run_of_job? (fit true), run_of_job? (fit false)]
    refine runJob_agree (fun s => prepares.truthful s markers') fun s text held => ?_
    -- the same markers, or two supplies that serve for what the command prepares in this text
    rcases supplied with rfl | served
    · rfl
    · obtain ⟨first, second⟩ := served text held
      have here (p : Prepared) (h : prepare text = .ok p) : inv.prepared? text = some p := by
        rw [prepared, h]
        rfl
      exact prepares.alike (fun p h => ⟨first p (here p h), second p (here p h)⟩) s

/-- **Every command has a dry run and a write run, and they agree.**  Whoever types a line that is
    accepted could have typed two others, which ask for the same change in either mode. -/
theorem exists_agreeing_lines {line : List Text} {inv : Invocation} {file : Text} {manner : Manner}
    (accepted : ofArguments line = .ok inv) (about : inv.work? = some (file, manner)) :
    ∃ dryLine writeLine, ofArguments dryLine = .ok (inv.withDryRun true) ∧
      ofArguments writeLine = .ok (inv.withDryRun false) ∧
      ∀ (disk : Disk) (failing : Option StorageStep) (markers markers' : Nat → Text),
        (markers = markers' ∨ ∀ text, disk.readText file = .ok text →
          inv.Served text markers ∧ inv.Served text markers') →
        Agree file manner failing disk
          ((execute dryLine markers : Session Outcome).on failing disk)
          ((execute writeLine markers' : Session Outcome).on failing disk) := by
  obtain ⟨dryLine, asked⟩ := exists_line accepted true
  obtain ⟨writeLine, asked'⟩ := exists_line accepted false
  refine ⟨dryLine, writeLine, asked, asked', fun disk failing markers markers' supplied => ?_⟩
  rw [execute_of_accepted asked, execute_of_accepted asked']
  exact run_agree about supplied

end Invocation

/-- **A dry run agrees with the write run** of the same command, be it `set` or `plugin`, on every disk,
    whatever the settings file and the file hold, and whichever step fails.  The markers are the same,
    or they serve. -/
theorem dryRun_agrees {dryLine writeLine : List Text} {inv : Invocation} {file : Text} {manner : Manner}
    (asked : Invocation.ofArguments dryLine = .ok (inv.withDryRun true))
    (asked' : Invocation.ofArguments writeLine = .ok (inv.withDryRun false))
    (about : inv.work? = some (file, manner)) {disk : Disk} {failing : Option StorageStep}
    {markers markers' : Nat → Text}
    (supplied : markers = markers' ∨ ∀ text, disk.readText file = .ok text →
      inv.Served text markers ∧ inv.Served text markers') :
    Agree file manner failing disk ((execute dryLine markers : Session Outcome).on failing disk)
      ((execute writeLine markers' : Session Outcome).on failing disk) := by
  rw [execute_of_accepted asked, execute_of_accepted asked']
  exact Invocation.run_agree about supplied

namespace SmallFile

/-- A root element and no more. -/
def text : Text := "<a/>".toList

/-- A disk with a file that holds it. -/
def disk : Disk := .ofFiles [] [("a.xml".toList, text.utf8)]

/-- One value into an element that is created, in a dry run. -/
def dryLine : List Text := ["set", "a.xml", "--dry-run", "--path", "b", "--set", "c=1"].map String.toList

/-- The same, and no dry run. -/
def writeLine : List Text := ["set", "a.xml", "--path", "b", "--set", "c=1"].map String.toList

/-- No settings file, and no report. -/
def manner : Manner := ⟨none, false, false, false⟩

/-- What both lines ask for. -/
def invocation : Invocation := .set "a.xml".toList ['b'] ["c=1".toList] manner

/-- The text with the value. -/
def newText : Text := "<a>\n    <b>\n        <c>1</c>\n    </b>\n</a>".toList

/-- The root element, as it was read. -/
def root : Element := ⟨⟨['a'], [], some ⟨some ⟨1, 1⟩, ⟨⟨0, 4⟩, text⟩, none⟩, false, false⟩, []⟩

/-- The root element with the value. -/
def grownRoot : Element :=
  root.append (Element.append (Element.ofValue ['c'] ['1']).toNode (Element.named ['b'])).toNode

/-- What is prepared. -/
def prepared : Prepared := ⟨⟨Source.ofText text, [], grownRoot, []⟩, ⟨[0]⟩, [['b']]⟩

/-- The marker that is drawn in the dry run, and the one that is drawn in the other. -/
def drawn (dry : Bool) : Nat → Text := fun _ => if dry then "@M@".toList else "@N@".toList

theorem served (dry : Bool) : Graft.Served prepared.document prepared.target (drawn dry) := by
  have found : Graft.site? grownRoot ⟨[0]⟩ = .ok ⟨⟨[]⟩, 0⟩ := by rfl
  have there : grownRoot.at? ⟨[]⟩ = some grownRoot := rfl
  unfold drawn
  cases dry with
  | true =>
    refine Graft.served_constantly found there (by decide) ?_ ?_
    · with_unfolding_all rfl
    · unfold Text.StandsOnce
      rfl
  | false =>
    refine Graft.served_constantly found there (by decide) ?_ ?_
    · with_unfolding_all rfl
    · unfold Text.StandsOnce
      rfl

theorem served_invocation (dry : Bool) : invocation.Served text (drawn dry) := by
  have here : invocation.prepared? text = some prepared := by with_unfolding_all rfl
  intro p same
  rw [here] at same
  cases same
  exact served dry

theorem written :
    ((execute writeLine (drawn false) : Session Outcome).on none disk).1 = .success [] := by decide +kernel

end SmallFile

open SmallFile in
/-- The dry run shows the text that the write run, which draws another marker, leaves in the file. -/
theorem dryRun_agrees_smallFile :
    Invocation.ofArguments dryLine = .ok (invocation.withDryRun true) ∧
    Invocation.ofArguments writeLine = .ok (invocation.withDryRun false) ∧
    invocation.work? = some ("a.xml".toList, manner) ∧
    disk.readText "a.xml".toList = .ok text ∧
    invocation.Served text (drawn true) ∧ invocation.Served text (drawn false) ∧
    (execute dryLine (drawn true) : Session Outcome).on none disk = (.success newText, disk) ∧
    ((execute writeLine (drawn false) : Session Outcome).on none disk).2.readText "a.xml".toList
      = .ok newText := by
  have asked : Invocation.ofArguments dryLine = .ok (invocation.withDryRun true) := by rfl
  have asked' : Invocation.ofArguments writeLine = .ok (invocation.withDryRun false) := by rfl
  have held : disk.readText "a.xml".toList = .ok text := by rfl
  have shows : ((execute dryLine (drawn true) : Session Outcome).on none disk).1
      = .success newText := by decide +kernel
  refine ⟨asked, asked', rfl, held, served_invocation true, served_invocation false, ?_⟩
  have supplied (held_text : Text) (h : disk.readText "a.xml".toList = .ok held_text) :
      invocation.Served held_text (drawn true) ∧ invocation.Served held_text (drawn false) := by
    rw [held] at h
    cases h
    exact ⟨served_invocation true, served_invocation false⟩
  have agree : Agree "a.xml".toList manner none disk
      ((execute dryLine (drawn true) : Session Outcome).on none disk)
      ((execute writeLine (drawn false) : Session Outcome).on none disk) :=
    dryRun_agrees asked asked' rfl (.inr supplied)
  rcases agree with
    ⟨u, shown, reported, holds, -⟩ | ⟨fault, refused, -⟩ | ⟨u, fault, -, -, -, failed⟩
  · -- there is no report, so what is shown is the text
    have same : u.text = newText := by
      rw [shown] at shows
      simpa [Outcome.success, Job.shownReport, manner] using shows
    rw [same] at shown holds
    exact ⟨by simpa [Job.shownReport, manner] using shown, holds⟩
  · rw [refused] at shows
    have codes := congrArg Outcome.code shows
    cases codes
  · have codes := congrArg Outcome.code written
    rw [failed] at codes
    cases codes

end XmlGraft
