/-
  Disk — files and directories as a value.

  A disk holds entries by their trails, the names on the way from the top; one directory is the one
  that is worked in.  The steps of `Storage` read and change the disk, and any one of them can
  be made to fail, so that what a failure leaves behind can be looked at.

  * `Disk.locate`    where a path leads to
  * `Disk.ofFiles`   a disk with files in the directory that is worked in
  * `Session`        steps on a disk, of which one may fail
-/
import XmlGraft.Files.Storage
import XmlGraft.Text.Utf8

namespace XmlGraft

/-- **What stands at the end of a trail.** -/
inductive Entry
  | file (bytes : ByteArray) (mode : Nat)
  | directory (mode : Nat)

namespace Entry

/-- The permissions. -/
def mode : Entry → Nat
  | file _ mode => mode
  | directory mode => mode

/-- The entry with other permissions. -/
def withMode (mode : Nat) : Entry → Entry
  | file bytes _ => file bytes mode
  | directory _ => directory mode

end Entry

/-- **Trail**: the names on the way from the top. -/
abbrev Trail := List Text

/-- **Disk**: entries by their trails. -/
structure Disk where
  /-- The directory that is worked in. -/
  home : Trail
  entries : List (Trail × Entry)

/-- **Where a path leads to.** -/
inductive Spot
  /-- Something is there. -/
  | taken (trail : Trail)
  /-- Nothing is there, but the directory is. -/
  | vacant (trail : Trail)
  deriving DecidableEq, Repr

namespace Disk

/-! ## Entries -/

/-- What stands at the end of a trail. -/
def lookup? (d : Disk) (l : Trail) : Option Entry := d.entries.lookup l

/-- Nothing at the end of a trail any more. -/
def erase (d : Disk) (l : Trail) : Disk :=
  { d with entries := d.entries.filter (·.1 != l) }

/-- An entry at the end of a trail, in the place of what stood there. -/
def insert (d : Disk) (l : Trail) (e : Entry) : Disk :=
  { d with entries := (l, e) :: (d.erase l).entries }

theorem lookup_filter_ne (entries : List (Trail × Entry)) (l k : Trail) :
    (entries.filter (·.1 != l)).lookup k = if k = l then none else entries.lookup k := by
  induction entries with
  | nil => simp
  | cons x entries ih =>
    obtain ⟨n, e⟩ := x
    by_cases h : n = l
    · subst h
      have dropped : ((n, e) :: entries).filter (·.1 != n) = entries.filter (·.1 != n) := by simp
      rw [dropped, ih]
      by_cases hk : k = n
      · simp [hk]
      · simp [hk, List.lookup_cons, beq_eq_false_iff_ne.2 hk]
    · have kept : ((n, e) :: entries).filter (·.1 != l) = (n, e) :: entries.filter (·.1 != l) := by
        simp [h]
      rw [kept]
      by_cases hk : k = l
      · subst hk
        have : (k == n) = false := beq_eq_false_iff_ne.2 (Ne.symm h)
        simp [ih, List.lookup_cons, this]
      · simp [ih, hk, List.lookup_cons]

/-- What is erased is gone, and nothing else. -/
theorem lookup?_erase (d : Disk) (l k : Trail) :
    (d.erase l).lookup? k = if k = l then none else d.lookup? k :=
  lookup_filter_ne d.entries l k

/-- What is inserted is there, and nothing else changes. -/
theorem lookup?_insert (d : Disk) (l k : Trail) (e : Entry) :
    (d.insert l e).lookup? k = if k = l then some e else d.lookup? k := by
  simp only [insert, lookup?, List.lookup_cons, erase, lookup_filter_ne]
  by_cases h : k = l
  · simp [h]
  · simp [h, beq_eq_false_iff_ne.2 h]

/-! ## Paths -/

/-- How many bytes a name may have. -/
def maxName : Nat := 255

/-- How many bytes a path may have. -/
def maxPath : Nat := 4095

/-- Follow names from a directory; a dot stays there, two dots go up. -/
def walk (d : Disk) (here : Trail) : List Text → Except FileFault Spot
  | [] => .ok (.taken here)
  | name :: rest =>
    if name = [] ∨ name = ['.'] then walk d here rest
    else if name = ['.', '.'] then walk d here.dropLast rest
    else if maxName < name.size then .error .nameTooLong
    else
      match d.lookup? (here ++ [name]) with
      | some (.directory _) => walk d (here ++ [name]) rest
      | some (.file ..) =>
        if rest.isEmpty then .ok (.taken (here ++ [name])) else .error .notADirectory
      | none => if rest.isEmpty then .ok (.vacant (here ++ [name])) else .error .notFound

/-- **Where a path leads to**; one that does not begin at the top begins in the directory that is
    worked in. -/
def locate (d : Disk) (path : Text) : Except FileFault Spot :=
  if path.any (· == '\x00') then .error .nullInName
  else if path.isEmpty then .error .notFound
  else if maxPath < path.size then .error .nameTooLong
  else d.walk (if path.head? = some '/' then [] else d.home) (Text.splitOn '/' path)

/-- The entry that a path leads to. -/
def at? (d : Disk) (path : Text) : Option Entry :=
  match d.locate path with
  | .ok (.taken l) => d.lookup? l
  | _ => none

/-! ## Steps -/

/-- The text of a file. -/
def readText (d : Disk) (path : Text) : Except FileFault Text := do
  match ← d.locate path with
  | .vacant _ => throw .notFound
  | .taken l =>
    match d.lookup? l with
    | some (.file bytes _) =>
      match Text.ofUtf8? bytes with
      | some text => return text
      | none => throw .notText
    | _ => throw .isADirectory

/-- The directory that a path leads to. -/
def directory (d : Disk) (path : Text) : Except FileFault Trail := do
  match ← d.locate path with
  | .vacant _ => throw .notFound
  | .taken l =>
    match d.lookup? l with
    | some (.file ..) => throw .notADirectory
    | _ => return l

/-- The name of the `n`-th draft. -/
def draftName (n : Nat) : Text := ".draft".toList ++ Nat.toDigits 10 n

/-- A trail into a directory at whose end nothing is. -/
def free? (d : Disk) (directory : Trail) : Option Trail :=
  ((List.range (d.entries.length + 1)).map fun n => directory ++ [draftName n]).find?
    fun l => (d.lookup? l).isNone

/-- A new draft, which only its owner may read and write. -/
def create (d : Disk) (path : Text) : Except FileFault (Trail × Disk) := do
  match d.free? (← d.directory path) with
  | some l => return (l, d.insert l (.file .empty 0o600))
  | none => throw (.other "File exists (os error 17)")

/-- Write the bytes of a draft. -/
def write (d : Disk) (draft : Trail) (bytes : ByteArray) : Except FileFault Disk :=
  match d.lookup? draft with
  | some e => .ok (d.insert draft (.file bytes e.mode))
  | none => .error .notFound

/-- Give an entry permissions. -/
def setMode (d : Disk) (l : Trail) (mode : Nat) : Except FileFault Disk :=
  match d.lookup? l with
  | some e => .ok (d.insert l (e.withMode mode))
  | none => .error .notFound

/-- Give what a path leads to permissions. -/
def chmod (d : Disk) (path : Text) (mode : Nat) : Except FileFault Disk := do
  match ← d.locate path with
  | .taken l => d.setMode l mode
  | .vacant _ => throw .notFound

/-- Put a draft in the place of a file. -/
def rename (d : Disk) (draft : Trail) (path : Text) : Except FileFault Disk := do
  match d.lookup? draft, ← d.locate path with
  | none, _ => throw .notFound
  | some e, .vacant l => return (d.erase draft).insert l e
  | some e, .taken l =>
    match d.lookup? l with
    | some (.file ..) => return (d.erase draft).insert l e
    | _ => throw .isADirectory

/-! ## Files by name -/

/-- The permissions of a new file. -/
def fileMode : Nat := 0o644

/-- The permissions of a new directory. -/
def directoryMode : Nat := 0o755

/-- The directory at the end of a trail, and those above it. -/
def insertDirectories (d : Disk) (l : Trail) : Disk :=
  let above := (List.range (l.length + 1)).map l.take
  (above.filter fun l => (d.lookup? l).isNone).foldl
    (fun d l => d.insert l (.directory directoryMode)) d

/-- A disk with an empty directory to work in. -/
def empty (home : Trail) : Disk := insertDirectories ⟨home, []⟩ home

/-- A file, with the directories on the way to it. -/
def insertFile (d : Disk) (name : Text) (bytes : ByteArray) : Disk :=
  let l := d.home ++ Storage.components name
  (d.insertDirectories l.dropLast).insert l (.file bytes fileMode)

/-- **A disk with files in the directory that is worked in.** -/
def ofFiles (home : Trail) (files : List (Text × ByteArray)) : Disk :=
  files.foldl (fun d (name, bytes) => d.insertFile name bytes) (empty home)

/-- **The files in the directory that is worked in** and in those below it, by their names. -/
def files (d : Disk) : List (Text × ByteArray) :=
  d.entries.filterMap fun (l, e) =>
    match e with
    | .file bytes _ =>
      if d.home.isPrefixOf l then some (Text.join ['/'] (l.drop d.home.length), bytes) else none
    | .directory _ => none

end Disk

/-! ## Steps on a disk -/

/-- **The steps that can be made to fail.** -/
inductive StorageStep
  | read
  | create
  /-- A write that comes to an end after so many bytes. -/
  | write (stored : Nat)
  | sync
  | setPermissions
  | rename
  deriving DecidableEq, Repr

/-- **Session**: steps on a disk, of which one may be made to fail. -/
abbrev Session := ReaderT (Option StorageStep) (StateM Disk)

namespace Session

/-- What a step tells that is made to fail. -/
def broken : FileFault := .other "Input/output error (os error 5)"

/-- What is done on a disk; nothing changes when it cannot be done. -/
def attempt {α : Type} (act : Disk → Except FileFault (α × Disk)) (d : Disk) :
    Except FileFault α × Disk :=
  match act d with
  | .ok (a, d) => (.ok a, d)
  | .error fault => (.error fault, d)

/-- What only changes the disk. -/
def changing (act : Disk → Except FileFault Disk) (d : Disk) : Except FileFault (Unit × Disk) :=
  (act d).map fun d => ((), d)

/-- A step; it changes nothing when it fails. -/
def step {α : Type} (name : StorageStep) (act : Disk → Except FileFault (α × Disk)) :
    Session (Except FileFault α) :=
  fun failing d => if failing = some name then (.error broken, d) else attempt act d

/-- A step that only changes the disk. -/
def change (name : StorageStep) (act : Disk → Except FileFault Disk) :
    Session (Except FileFault Unit) :=
  step name (changing act)

/-- The step that writes a text into a draft; when it fails, the draft holds the bytes that were
    stored. -/
def fill (draft : Trail) (text : Text) : Session (Except FileFault Unit) :=
  fun failing d =>
    match failing with
    | some (.write stored) =>
      (.error broken, (attempt (changing (·.write draft (text.utf8.extract 0 stored))) d).2)
    | _ => attempt (changing (·.write draft text.utf8)) d

/-- The steps of a session are those on its disk. -/
instance : Storage Session where
  Draft := Trail
  read path := step .read fun d => (d.readText path).map fun text => (text, d)
  create path := step .create (·.create path)
  write draft text := fill draft text
  sync _ := change .sync .ok
  permissions? path := fun _ d => ((d.at? path).map Entry.mode, d)
  setPermissions draft mode := change .setPermissions (·.setMode draft mode)
  rename draft path := change .rename (·.rename draft path)
  discard draft := fun _ d => ((), d.erase draft)

end Session

end XmlGraft
