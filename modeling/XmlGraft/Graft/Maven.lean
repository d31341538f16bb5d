/-
  Maven — the configuration of a plugin in a project file.

  A plugin stands under `build/plugins` and is known by its coordinates.  Its `configuration` holds
  the fields of the application and, in a block `deployment`, those of the deployment.  What is
  missing is created; a block that no fields are given for is left alone.

  * `Coordinates.declaredBy`  is this the plugin?
  * `PluginUpdate.apply`      the fields written into the project file

  Coordinates are compared as they are given, while the text of an element is trimmed.  So
  coordinates with spaces around them are never found, and each update of such a plugin creates one.
  An element without a version declares every version, and is not given one.

  The fields are written where they belong one after the other, each time at an address in the whole
  tree.  The block comes last, which matters for a field of the application that has its name.
-/
import XmlGraft.Graft.Update

namespace XmlGraft.Maven

open Markup

/-- **Coordinates** of a plugin. -/
structure Coordinates where
  groupId : Text
  artifactId : Text
  version : Text
  deriving DecidableEq, Repr

namespace Coordinates

/-- The names of the elements that hold the coordinates. -/
def names : List Text := ["groupId", "artifactId", "version"].map String.toList

/-- The coordinates in the order of their names. -/
def values (c : Coordinates) : List Text := [c.groupId, c.artifactId, c.version]

/-- **Does an element declare the plugin?**  One without a version declares every version. -/
def declaredBy (c : Coordinates) (plugin : Element) : Bool :=
  plugin.childText? "groupId".toList == some c.groupId
    && plugin.childText? "artifactId".toList == some c.artifactId
    && (plugin.childText? "version".toList).all (· == c.version)

/-- The fields of a new plugin. -/
def seed (c : Coordinates) : Fields :=
  .ofPairs ((names.zip c.values).map fun (name, value) => (name, .text value))

/-- The step to the plugin. -/
def step (c : Coordinates) : Step := ⟨"plugin".toList, some c.declaredBy, some c.seed⟩

/-- The route to the plugin. -/
def route (c : Coordinates) : Route :=
  [.named "build".toList, .named "plugins".toList, c.step]

/-- Texts by their names; the first one that is missing is told. -/
def ofEntries (entries : List (Text × Text)) : Except DataFault Coordinates := do
  return ⟨← Data.require "groupId".toList entries, ← Data.require "artifactId".toList entries,
    ← Data.require "version".toList entries⟩

/-- The next of the three texts of a list. -/
def nextText (n : Nat) : List Data → Except DataFault (Text × List Data)
  | [] => .error (.wrongLength n "struct PluginCoordinates with 3 elements")
  | d :: rest => do return (← d.asText, rest)

/-- **Coordinates from data**: a record, whose other entries do not count, or the list of the
    three texts. -/
def ofData (d : Data) : Except DataFault Coordinates :=
  match d with
  | .table entries => do
    let known ← (entries.filter (names.contains ·.1)).mapM fun (name, value) => do
      return (name, ← value.asText)
    ofEntries known
  | .list items =>
    Data.exactly items fun items => do
      let (groupId, items) ← nextText 0 items
      let (artifactId, items) ← nextText 1 items
      let (version, items) ← nextText 2 items
      return (⟨groupId, artifactId, version⟩, items)
  | d => d.refuse "struct PluginCoordinates"

end Coordinates

/-- **A change of the configuration of a plugin**; nothing is said about a block without fields. -/
structure PluginUpdate where
  coordinates : Coordinates
  application : Option Fields
  deployment : Option Fields
  deriving DecidableEq, Repr

/-- An element with a change in it: the tree, where the element is, and what was created. -/
structure Reached where
  root : Element
  address : Address
  created : List Text

namespace Reached

/-- Go on to a child of a name, which is created if there is none. -/
def enter (r : Reached) (name : Text) : Except TargetFault Reached := do
  let (root, arrival) ← Route.findOrCreate r.root r.address [.named name]
  return ⟨root, arrival.address, r.created ++ arrival.created⟩

/-- Write fields, if there are any to be written. -/
def write (r : Reached) (fields : Option Fields) : Except TargetFault Reached :=
  match fields with
  | none => .ok r
  | some fields => do
    let (root, _) ← writeFields r.root r.address fields
    return { r with root }

end Reached

namespace PluginUpdate

/-- The plugin, found or created. -/
def plugin (u : PluginUpdate) (root : Element) : Except TargetFault Reached := do
  let (root, arrival) ← Route.findOrCreate root .root u.coordinates.route
  return ⟨root, arrival.address, arrival.created⟩

/-- The plugin's deployment block, inside the configuration, with its fields. -/
def deploy (u : PluginUpdate) (configuration : Reached) : Except TargetFault Reached :=
  match u.deployment with
  | none => .ok configuration
  | some fields => do
    let block ← configuration.enter "deployment".toList
    let block ← block.write (some fields)
    return { block with address := configuration.address }

/-- **The change made in the tree**; the element it was made in is the configuration, or the
    plugin when there is nothing to configure. -/
def changeTree (u : PluginUpdate) (root : Element) : Except TargetFault Reached := do
  let plugin ← u.plugin root
  -- the plugin is created even when nothing is configured
  if u.application.isNone && u.deployment.isNone then return plugin
  let configuration ← plugin.enter "configuration".toList
  let configuration ← configuration.write u.application
  u.deploy configuration

/-- **The change made in the text of a project file.** -/
def apply (u : PluginUpdate) (text : Text) (settings : Settings) (markers : Nat → Text) :
    Except Failure Updated := do
  let d ← readDocument text
  let reached ← asFailure (u.changeTree d.root)
  finishUpdate { d with root := reached.root } reached.address reached.created settings markers

end PluginUpdate

end XmlGraft.Maven
