/-
  Arguments — what a command line asks for.

  There are two commands.  `set` writes values into the element at a path, `plugin` into the
  configuration of a Maven plugin.  Arguments are taken from left to right, and the first one that
  cannot stand where it stands ends the reading.

  * An option has two dashes.  Its value is the next argument or follows an equals sign; the next
    argument may not look like an option.
  * After an argument of two dashes alone there are no more options.
  * A switch has no value.  A switch, and an option that may be given once, may not come twice.
  * Every other argument is an operand.

  * `Grammar.read`            the options and operands of a command
  * `Invocation.ofArguments`  what a command line asks for
-/
import XmlGraft.Graft.Maven

namespace XmlGraft

/-- **Why a command line is not carried out.** -/
inductive Refusal
  /-- It asks for help. -/
  | help
  /-- It makes no sense; the reason in words. -/
  | usage (reason : String)
  deriving DecidableEq, Repr

/-! ## Options and operands -/

/-- What stands behind an option. -/
inductive OptionKind
  /-- Nothing: the option is a switch. -/
  | switch
  /-- One value. -/
  | single
  /-- One value, which names a file. -/
  | file
  /-- One value, as often as the option is given. -/
  | repeated
  deriving DecidableEq, Repr

/-- **The options of a command** with their kinds; there is one operand, the file. -/
structure Grammar where
  options : List (Text × OptionKind)

/-- **What has been given**: options in order, a switch with an empty value, and operands. -/
structure Given where
  options : List (Text × Text)
  operands : List Text
  deriving DecidableEq, Repr

namespace Given

/-- Nothing. -/
def none : Given := ⟨[], []⟩

/-- Has an option been given? -/
def has (g : Given) (name : Text) : Bool := g.options.any (·.1 == name)

/-- The values of an option. -/
def values (g : Given) (name : Text) : List Text :=
  g.options.filterMap fun (n, value) => if n == name then some value else Option.none

/-- The value of an option that is given once. -/
def value? (g : Given) (name : Text) : Option Text := (g.values name).head?

/-- The value of an option that must be given. -/
def require (g : Given) (name : Text) : Except Refusal Text :=
  match g.value? name with
  | some value => .ok value
  | Option.none => .error (.usage ("missing --" ++ String.ofList name))

/-- The file. -/
def file (g : Given) : Except Refusal Text :=
  match g.operands.head? with
  | some file => .ok file
  | Option.none => .error (.usage "missing file")

end Given

namespace Grammar

/-- One more operand. -/
def addOperand (given : Given) (operand : Text) : Except Refusal Given :=
  if operand.isEmpty then .error (.usage "the name of a file is empty")
  else if given.operands.isEmpty then .ok { given with operands := [operand] }
  else .error (.usage ("unexpected " ++ String.ofList operand))

/-- Every argument is an operand. -/
def addOperands (given : Given) (operands : List Text) : Except Refusal Given :=
  operands.foldlM addOperand given

/-- One more option. -/
def addOption (given : Given) (name : Text) (kind : OptionKind) (value : Text) :
    Except Refusal Given :=
  if kind ≠ .repeated ∧ given.has name then
    .error (.usage ("--" ++ String.ofList name ++ " is given twice"))
  else if kind = .file ∧ value.isEmpty then .error (.usage "the name of a file is empty")
  else .ok { given with options := given.options ++ [(name, value)] }

/-- Does an argument look like an option? A single dash does not. -/
def looksLikeOption : Text → Bool
  | ['-'] => false
  | '-' :: _ => true
  | _ => false

/-- The name of an option and the value that follows its equals sign. -/
def splitOption (long : Text) : Text × Option Text :=
  match Text.cut? ['='] long with
  | some (name, value) => (name, some value)
  | none => (long, none)

/-- Read on. -/
def readFrom (g : Grammar) (given : Given) : List Text → Except Refusal Given
  | [] => .ok given
  | ['-', '-'] :: rest => addOperands given rest
  | ('-' :: '-' :: long) :: rest =>
    match splitOption long with
    | (name, attached) =>
      match g.options.lookup name, attached with
      | some .switch, none => do
        let given ← addOption given name .switch []
        g.readFrom given rest
      | some .switch, some _ => .error (.usage ("--" ++ String.ofList name ++ " has no value"))
      | some kind, some value => do
        let given ← addOption given name kind value
        g.readFrom given rest
      | some kind, none =>
        match rest with
        | [] => .error (.usage ("--" ++ String.ofList name ++ " needs a value"))
        | value :: rest =>
          if looksLikeOption value then
            .error (.usage ("--" ++ String.ofList name ++ " needs a value"))
          else do
            let given ← addOption given name kind value
            g.readFrom given rest
      | none, _ =>
        if long = "help".toList then .error .help
        else .error (.usage ("unexpected --" ++ String.ofList long))
  | ['-'] :: rest => do
    let given ← addOperand given ['-']
    g.readFrom given rest
  | ('-' :: short :: _) :: _ =>
    if short = 'h' then .error .help
    else .error (.usage ("unexpected -" ++ String.ofList [short]))
  | operand :: rest => do
    let given ← addOperand given operand
    g.readFrom given rest

/-- **The options and operands that arguments give.** -/
def read (g : Grammar) (arguments : List Text) : Except Refusal Given :=
  g.readFrom .none arguments

end Grammar

/-! ## Commands -/

/-- **How a command works**, whatever it changes. -/
structure Manner where
  /-- The settings file. -/
  settings : Option Text
  /-- Take the indent unit from the document. -/
  inferUnit : Bool
  /-- Show the new text and leave the file alone. -/
  dryRun : Bool
  /-- Show the report. -/
  report : Bool
  deriving DecidableEq, Repr

/-- **What a command line asks for.** -/
inductive Invocation
  | version
  /-- Values into the element at a path. -/
  | set (file path : Text) (assignments : List Text) (manner : Manner)
  /-- Values into the configuration of a plugin and into its deployment block. -/
  | plugin (file : Text) (coordinates : Maven.Coordinates) (assignments deployments : List Text)
      (manner : Manner)
  deriving DecidableEq, Repr

namespace Invocation

/-- The options that every command has. -/
def commonOptions : List (Text × OptionKind) :=
  [("settings".toList, .file), ("infer-indent".toList, .switch), ("dry-run".toList, .switch),
    ("json".toList, .switch)]

/-- The options of `set`. -/
def setGrammar : Grammar :=
  ⟨[("path".toList, .single), ("set".toList, .repeated)] ++ commonOptions⟩

/-- The options of `plugin`. -/
def pluginGrammar : Grammar :=
  ⟨[("group-id".toList, .single), ("artifact-id".toList, .single),
    ("plugin-version".toList, .single), ("set".toList, .repeated), ("deploy".toList, .repeated)]
    ++ commonOptions⟩

/-- How the command works. -/
def manner (given : Given) : Manner :=
  ⟨given.value? "settings".toList, given.has "infer-indent".toList, given.has "dry-run".toList,
    given.has "json".toList⟩

/-- The command `set`. -/
def ofSet (arguments : List Text) : Except Refusal Invocation := do
  let given ← setGrammar.read arguments
  return .set (← given.file) (← given.require "path".toList) (given.values "set".toList)
    (manner given)

/-- The command `plugin`. -/
def ofPlugin (arguments : List Text) : Except Refusal Invocation := do
  let given ← pluginGrammar.read arguments
  let coordinates : Maven.Coordinates := ⟨← given.require "group-id".toList,
    ← given.require "artifact-id".toList, ← given.require "plugin-version".toList⟩
  return .plugin (← given.file) coordinates (given.values "set".toList)
    (given.values "deploy".toList) (manner given)

/-- The names of the commands. -/
def commands : List String := ["plugin", "set", "help"]

/-- **What a command line asks for**, from the arguments. -/
def ofArguments (arguments : List Text) : Except Refusal Invocation :=
  match arguments with
  | [] => .error (.usage "missing command")
  | first :: rest =>
    match String.ofList first with
    | "set" => ofSet rest
    | "plugin" => ofPlugin rest
    | "help" =>
      if rest = [] ∨ ∃ name ∈ commands, rest = [name.toList] then .error .help
      else .error (.usage "no such command")
    | "--version" => .ok .version
    | "--help" => .error .help
    | _ =>
      match first with
      | '-' :: 'V' :: _ => .ok .version
      | '-' :: 'h' :: _ => .error .help
      | _ => .error (.usage ("no such command: " ++ String.ofList first))

end Invocation

end XmlGraft
