/-
  Modes — a switch stands apart from the rest of a command line.

  Whether a switch is given does not bear on how the other arguments are read.  So a line with a dry
  run and a line without one ask for the same change, and each command that is accepted in one mode
  can be asked for in the other.  The comparison of the two runs rests on this: without it there
  might be commands that have no second run to be compared with.

  1. **Twins** (`Twin`): what is given is the same but for one option.  Whatever is looked up under
     another name is the same in both (`Twin.has`, `Twin.values`).

  2. **Reading** (`exists_readFrom`): a line without the switch is read like the line, from twins to
     twins.  The reading goes along the line and keeps what was given so far; each of its steps goes
     on alike from twins (`Mirrored`), and steps that do are put together (`Mirrored.bind`).

  3. **Either mode** (`exists_line`): a command that is accepted can be asked for with a dry run and
     without one: the switch is left out, or put in front of the rest.

  The line that is shown to exist is not the shortest one, and what it shows of the grammar is
  little: the switch may stand in front of everything else.  No more is needed, as the two runs are
  compared by what the lines ask for.
-/
import XmlGraft.Command.Arguments
import XmlGraft.Proofs.Graft.Prepared

namespace XmlGraft

/-! ## Twins -/

namespace Given

/-- **What has been given, apart from one option.** -/
def without (name : Text) (g : Given) : Given :=
  { g with options := g.options.filter (·.1 != name) }

variable {name other : Text} {g g' : Given}

/-- Leaving out one option does not bear on whether another is given. -/
theorem has_without (h : other ≠ name) (g : Given) : (g.without name).has other = g.has other := by
  simp only [has, without, List.any_filter]
  congr 1
  funext x
  by_cases same : x.1 = other
  · simp [same, h]
  · simp [same]

/-- Leaving out one option does not bear on the values of another. -/
theorem values_without (h : other ≠ name) (g : Given) :
    (g.without name).values other = g.values other := by
  simp only [values, without, List.filterMap_filter]
  congr 1
  funext x
  by_cases same : x.1 = other
  · simp [same, h]
  · simp [same]

/-- **Twins but for one option**: all else that is given is the same. -/
def Twin (name : Text) (g g' : Given) : Prop := g.without name = g'.without name

theorem Twin.operands (h : Twin name g g') : g.operands = g'.operands := by
  have same : (g.without name).operands = (g'.without name).operands := by rw [h]
  exact same

/-- Twins agree on whether any other option is given. -/
theorem Twin.has (twin : Twin name g g') (h : other ≠ name) : g.has other = g'.has other := by
  rw [← has_without h g, twin, has_without h g']

/-- Twins agree on the values of any other option. -/
theorem Twin.values (twin : Twin name g g') (h : other ≠ name) : g.values other = g'.values other := by
  rw [← values_without h g, twin, values_without h g']

end Given

namespace Grammar

open Given

/-! ## Reading -/

/-- **A step that goes on alike from twins**: it succeeds for both, gives twins, and leaves the option as
    it is with the twin. -/
def Mirrored (name : Text) (given : Given) (step : Given → Except Refusal Given) (given' : Given) :
    Prop :=
  ∀ twin, Twin name given twin → ∃ twin', step twin = .ok twin' ∧ Twin name given' twin' ∧
    twin'.has name = twin.has name

variable {name : Text} {given given₁ given' : Given}

/-- An operand is taken alike: whether there is one already is the same in twins. -/
theorem mirrored_addOperand {operand : Text} (done : addOperand given operand = .ok given') :
    Mirrored name given (addOperand · operand) given' := by
  intro twin same
  simp only [addOperand, same.operands] at done ⊢
  split at done
  · cases done
  · next some_name =>
    split at done
    · next first =>
      cases done
      refine ⟨{ twin with operands := [operand] }, ?_, ?_, rfl⟩
      · rw [if_neg some_name, if_pos first]
      · exact congrArg (fun g => { g with operands := [operand] }) same
    · cases done

/-- Another option is taken alike: whether it stood before, and how often, is the same in twins. -/
theorem mirrored_addOption {other value : Text} {kind : OptionKind} (apart : other ≠ name)
    (done : addOption given other kind value = .ok given') :
    Mirrored name given (addOption · other kind value) given' := by
  intro twin same
  simp only [addOption, same.has apart] at done ⊢
  split at done
  · cases done
  · next once =>
    split at done
    · cases done
    · next full =>
      cases done
      refine ⟨{ twin with options := twin.options ++ [(other, value)] }, ?_, ?_, ?_⟩
      · rw [if_neg once, if_neg full]
      · have options := congrArg Given.options same
        simp only [without] at options
        simp only [Twin, without, List.filter_append, options, same.operands]
      · simp [Given.has, apart]

/-- Two steps that go on alike do so one after the other. -/
theorem Mirrored.bind {step next : Given → Except Refusal Given}
    (first : Mirrored name given step given₁) (second : Mirrored name given₁ next given') :
    Mirrored name given (fun g => step g >>= next) given' := by
  intro twin same
  obtain ⟨twin₁, done, same₁, has₁⟩ := first twin same
  obtain ⟨twin', done', same', has'⟩ := second twin₁ same₁
  exact ⟨twin', by simp only [done]; exact done', same', has'.trans has₁⟩

/-- Operands are taken alike, one after the other. -/
theorem mirrored_addOperands {operands : List Text} (done : addOperands given operands = .ok given') :
    Mirrored name given (addOperands · operands) given' := by
  induction operands generalizing given with
  | nil =>
    cases done
    exact fun twin same => ⟨twin, rfl, same, rfl⟩
  | cons operand operands ih =>
    rw [addOperands, List.foldlM_cons] at done
    cases first : addOperand given operand with
    | error refusal =>
      rw [first] at done
      cases done
    | ok given₁ =>
      rw [first] at done
      have both : Mirrored name given (fun g => addOperand g operand >>= (addOperands · operands)) given' :=
        (mirrored_addOperand first).bind (ih done)
      intro twin same
      obtain ⟨twin', reached, rest⟩ := both twin same
      exact ⟨twin', by simp only [addOperands, List.foldlM_cons]; exact reached, rest⟩

/-- The option itself makes no difference. -/
theorem twin_addOption {kind : OptionKind} {value : Text}
    (done : addOption given name kind value = .ok given₁) : Twin name given₁ given := by
  rw [addOption] at done
  split at done
  · cases done
  · split at done
    · cases done
    · cases done
      simp [Twin, without]

/-- An argument or two at the front of a line are read in one step, and the rest after them. -/
theorem exists_front {g : Grammar} (front : List Text) (step : Given → Except Refusal Given)
    {rest : List Text}
    (reads : ∀ given line, g.readFrom given (front ++ line) = step given >>= (g.readFrom · line))
    (mirrored : ∀ given₁, step given = .ok given₁ → Mirrored name given step given₁)
    (ih : ∀ given₁, g.readFrom given₁ rest = .ok given' →
      ∃ line', Mirrored name given₁ (g.readFrom · line') given')
    (done : step given >>= (g.readFrom · rest) = .ok given') :
    ∃ line', Mirrored name given (g.readFrom · line') given' := by
  cases first : step given with
  | error refusal =>
    rw [first] at done
    cases done
  | ok given₁ =>
    rw [first] at done
    obtain ⟨line', later⟩ := ih given₁ done
    refine ⟨front ++ line', ?_⟩
    simp only [reads]
    exact (mirrored given₁ first).bind later

/-- **A line without a switch** is read like the line.  Along the reading: where the switch itself
    is read it is left out, and every other argument is read as it stands, in the same place. -/
theorem exists_readFrom {g : Grammar} (switch : g.options.lookup name = some .switch) {line : List Text}
    (done : g.readFrom given line = .ok given') :
    ∃ line', Mirrored name given (g.readFrom · line') given' := by
  have apart {other : Text} {kind : OptionKind} (found : g.options.lookup other = some kind)
      (valued : kind = .switch → False) : other ≠ name := by
    rintro rfl
    rw [found] at switch
    exact valued (Option.some.inj switch)
  -- along the reading of the line; a case that ends it with a refusal gives nothing
  fun_induction Grammar.readFrom g given line with
  | case1 given =>
    cases done
    exact ⟨[], fun twin same => ⟨twin, by simp only [readFrom], same, rfl⟩⟩
  -- behind two dashes everything is an operand, and the switch cannot stand there
  | case2 given rest =>
    refine ⟨['-', '-'] :: rest, ?_⟩
    simp only [readFrom]
    exact mirrored_addOperands done
  | case3 given long rest some_name own found divided ih =>
    by_cases same : own = name
    · -- the switch itself is left out
      subst same
      cases first : addOption given own .switch [] with
      | error refusal =>
        rw [first] at done
        cases done
      | ok given₁ =>
        rw [first] at done
        obtain ⟨line', later⟩ := ih given₁ done
        exact ⟨line', fun twin h => later twin ((twin_addOption first).trans h)⟩
    · exact exists_front ['-' :: '-' :: long] (addOption · own .switch [])
        (fun given line => by simp [readFrom, divided, found]) (fun _ => mirrored_addOption same) ih done
  | case5 given long rest some_name own kind value valued found divided ih =>
    exact exists_front ['-' :: '-' :: long] (addOption · own kind value)
      (fun given line => by simp [readFrom, divided, found])
      (fun _ => mirrored_addOption (apart found valued)) ih done
  | case8 given long some_name own kind valued found value rest plain divided ih =>
    exact exists_front ['-' :: '-' :: long, value] (addOption · own kind value)
      (fun given line => by simp [readFrom, divided, found, plain])
      (fun _ => mirrored_addOption (apart found valued)) ih done
  | case11 given rest ih =>
    exact exists_front [['-']] (addOperand · ['-'])
      (fun given line => by simp [readFrom]) (fun _ => mirrored_addOperand) ih done
  | case14 given operand rest no_end no_long no_dash no_short ih =>
    exact exists_front [operand] (addOperand · operand)
      (fun given line => by rw [List.singleton_append, readFrom] <;> assumption)
      (fun _ => mirrored_addOperand) ih done
  | case4 | case6 | case7 | case9 | case10 | case12 | case13 => cases done

/-- **A switch can be given or left out**: either way the line is read, and what is given is the same
    but for the switch. -/
theorem exists_read {g : Grammar} (switch : g.options.lookup name = some .switch) (some_name : name ≠ [])
    (plain : splitOption name = (name, Option.none)) {line : List Text} (done : g.read line = .ok given)
    (on : Bool) :
    ∃ line' twin, g.read line' = .ok twin ∧ Twin name given twin ∧ twin.has name = on := by
  obtain ⟨line', mirrored⟩ := exists_readFrom switch done
  cases on with
  | false =>
    obtain ⟨twin, reached, same, has⟩ := mirrored .none rfl
    exact ⟨line', twin, reached, same, has⟩
  | true =>
    obtain ⟨twin, reached, same, has⟩ :=
      mirrored ⟨[(name, [])], []⟩ (by simp [Twin, without, Given.none])
    refine ⟨('-' :: '-' :: name) :: line', twin, ?_, same, by rw [has]; simp [Given.has]⟩
    -- the switch comes first and is given once, and then the line without it is read
    have first : addOption .none name .switch [] = .ok ⟨[(name, [])], []⟩ := by
      simp [addOption, Given.has, Given.none]
    have second : g.readFrom .none (('-' :: '-' :: name) :: line')
        = addOption .none name .switch [] >>= (g.readFrom · line') := by
      simp [readFrom, plain, switch]
    rw [read, second, first]
    exact reached

end Grammar

/-! ## Either mode -/

/-- The manner with a dry run or without one. -/
def Manner.withDryRun (dry : Bool) (manner : Manner) : Manner := { manner with dryRun := dry }

namespace Invocation

open Given

/-- The file that a command works on, and how. -/
def work? : Invocation → Option (Text × Manner)
  | version => none
  | set file _ _ manner => some (file, manner)
  | plugin file _ _ _ manner => some (file, manner)

/-- The same command with a dry run or without one. -/
def withDryRun (dry : Bool) : Invocation → Invocation
  | version => version
  | set file path assignments manner => set file path assignments (manner.withDryRun dry)
  | plugin file coordinates assignments deployments manner =>
    plugin file coordinates assignments deployments (manner.withDryRun dry)

/-- The name of the switch. -/
def dryRun : Text := "dry-run".toList

variable {given twin : Given}

/-- The manner of a twin is that of the command, but for the dry run. -/
theorem manner_of_twin (same : Twin dryRun given twin) :
    manner twin = (manner given).withDryRun (twin.has dryRun) := by
  have settings : "settings".toList ≠ dryRun := by decide
  have infer : "infer-indent".toList ≠ dryRun := by decide
  have report : "json".toList ≠ dryRun := by decide
  simp only [manner, Manner.withDryRun, Given.value?, same.values settings, same.has infer,
    same.has report]
  rfl

/-- What a command requires, its twin has as well. -/
theorem require_of_twin (same : Twin dryRun given twin) {name : Text} (other : name ≠ dryRun) :
    twin.require name = given.require name := by
  rw [Given.require, Given.require, Given.value?, Given.value?, same.values other]

theorem file_of_twin (same : Twin dryRun given twin) : twin.file = given.file := by
  rw [Given.file, Given.file, same.operands]

theorem dryRun_ne_nil : dryRun ≠ [] := by decide

theorem splitOption_dryRun : Grammar.splitOption dryRun = (dryRun, Option.none) := by decide

/-- **Either mode of `set`.** -/
theorem exists_ofSet {arguments : List Text} {inv : Invocation} (accepted : ofSet arguments = .ok inv)
    (dry : Bool) : ∃ arguments', ofSet arguments' = .ok (inv.withDryRun dry) := by
  rw [ofSet] at accepted
  obtain ⟨given, done, accepted⟩ := exists_of_bind accepted
  obtain ⟨file, named, accepted⟩ := exists_of_bind accepted
  obtain ⟨path, routed, accepted⟩ := exists_of_bind accepted
  cases accepted
  obtain ⟨arguments', twin, reached, same, rfl⟩ :=
    Grammar.exists_read (by decide) dryRun_ne_nil splitOption_dryRun done dry
  refine ⟨arguments', ?_⟩
  rw [ofSet, reached]
  simp only [bind, Except.bind, file_of_twin same, named,
    require_of_twin same (by decide : "path".toList ≠ dryRun), routed, manner_of_twin same,
    ← same.values (by decide : "set".toList ≠ dryRun)]
  rfl

/-- **Either mode of `plugin`.** -/
theorem exists_ofPlugin {arguments : List Text} {inv : Invocation}
    (accepted : ofPlugin arguments = .ok inv) (dry : Bool) :
    ∃ arguments', ofPlugin arguments' = .ok (inv.withDryRun dry) := by
  rw [ofPlugin] at accepted
  obtain ⟨given, done, accepted⟩ := exists_of_bind accepted
  obtain ⟨group, grouped, accepted⟩ := exists_of_bind accepted
  obtain ⟨artifact, identified, accepted⟩ := exists_of_bind accepted
  obtain ⟨number, versioned, accepted⟩ := exists_of_bind accepted
  obtain ⟨file, named, accepted⟩ := exists_of_bind accepted
  cases accepted
  obtain ⟨arguments', twin, reached, same, rfl⟩ :=
    Grammar.exists_read (by decide) dryRun_ne_nil splitOption_dryRun done dry
  refine ⟨arguments', ?_⟩
  rw [ofPlugin, reached]
  simp only [bind, Except.bind, file_of_twin same, named,
    require_of_twin same (by decide : "group-id".toList ≠ dryRun), grouped,
    require_of_twin same (by decide : "artifact-id".toList ≠ dryRun), identified,
    require_of_twin same (by decide : "plugin-version".toList ≠ dryRun), versioned,
    manner_of_twin same, ← same.values (by decide : "set".toList ≠ dryRun),
    ← same.values (by decide : "deploy".toList ≠ dryRun)]
  rfl

/-- **A command that is accepted can be asked for in either mode.** -/
theorem exists_line {line : List Text} {inv : Invocation} (accepted : ofArguments line = .ok inv)
    (dry : Bool) : ∃ line', ofArguments line' = .ok (inv.withDryRun dry) := by
  have whole := accepted
  unfold ofArguments at accepted
  split at accepted
  · cases accepted
  · next first rest =>
    split at accepted
    · next command =>
      obtain ⟨rest', reached⟩ := exists_ofSet accepted dry
      refine ⟨first :: rest', ?_⟩
      simp only [ofArguments, command]
      exact reached
    · next command =>
      obtain ⟨rest', reached⟩ := exists_ofPlugin accepted dry
      refine ⟨first :: rest', ?_⟩
      simp only [ofArguments, command]
      exact reached
    · -- the other commands have no dry run, and are asked for as they were
      split at accepted <;> cases accepted
    · cases accepted
      exact ⟨_, whole⟩
    · cases accepted
    · split at accepted
      · cases accepted
        exact ⟨_, whole⟩
      · cases accepted
      · cases accepted

end Invocation

end XmlGraft
