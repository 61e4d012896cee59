import Docblock.Document.Section
import Docblock.Document.Template
import Docblock.MemberTable.Basic
import Docblock.Resolve.Resolver

/-!
# Assembling a document

The names that are asked for are resolved in order; types that are left out or
repeated are dropped, and every remaining type gets a section with its member
table. A document for several types starts with a table of contents. At the end
type names in the sections are linked: documented types to their sections, and
built-in classes that a rendered signature names to their addresses.
-/

namespace Docblock

open Documented

/-- The settings of a document. -/
structure DocumentSettings where
  showsReferences : Bool := false
  leavesOutInternal : Bool := false
  template : Text := Template.standard

namespace Document

/-- Whether something internal is left out. -/
def hides (settings : DocumentSettings) (prose : Prose) : Bool :=
  settings.leavesOutInternal && prose.isInternal

/-- Resolves names in order and drops types that are left out or repeated, given
the names of the types collected before. -/
def collect (settings : DocumentSettings) (resolver : Resolver) :
    (collected : List Text) → (names : List Text) → Resolution →
      Except Failure (List Entity) × Resolution
  | _, [], state => (.ok [], state)
  | collected, name :: rest, state =>
    match resolver.resolve name state with
    | (.error failure, after) => (.error failure, after)
    | (.ok entity, after) =>
      if entity.isIgnored || hides settings entity.prose then
        collect settings resolver collected rest (after.note (.leftOut entity.name))
      else if collected.contains entity.name then collect settings resolver collected rest after
      else
        let following := collect settings resolver (entity.name :: collected) rest after
        (following.1.map (entity :: ·), following.2)

/-- The address of a built-in class. -/
def addressOf (settings : DocumentSettings) (name : Text) : Except Failure Text :=
  let slug := Text.lower
    ((Text.replaceAll TypeName.arrayMark [] name).filter (· != ClassName.separator))
  (Template.fill settings.template slug).mapError .template

/-- Enters the address of a built-in class unless its name has a target. -/
def linkBuiltIn (settings : DocumentSettings) (links : Keyed Text) (name : Option Text) :
    Except Failure (Keyed Text) :=
  match name.filter (· ≠ []) with
  | none => .ok links
  | some name => (addressOf settings name).map fun address => Keyed.putNew name address links

/-- The built-in classes that the signature of a method names: that of the return
type and that of each parameter. -/
def builtInsOf (resolver : Resolver) (method : Method) : List (Option Text) :=
  method.returnType.bind resolver.builtInOf :: method.parameters.map (·.builtIn)

/-- The methods of a type that have a row in its table. -/
def shownMethods (settings : DocumentSettings) (entity : Entity) : List Method :=
  entity.methods.filter fun method => !hides settings method.prose

/-- Enters the addresses of the built-in classes that the shown methods of a type
name. -/
def linkSignatures (settings : DocumentSettings) (resolver : Resolver) (entity : Entity)
    (links : Keyed Text) : Except Failure (Keyed Text) :=
  ((shownMethods settings entity).flatMap (builtInsOf resolver)).foldlM
    (linkBuiltIn settings) links

/-- Fills the member table of a type. -/
def fillTable (settings : DocumentSettings) (entity : Entity) (table : MemberTable) :
    MemberTable :=
  (shownMethods settings entity).foldl
    (fun table method => table.add method settings.showsReferences)
    (table.opened.markAbstract (!entity.isInterface))

/-- The sections of a document, with the link targets known after the last of
them and the member table as the last of them leaves it. -/
def sections (settings : DocumentSettings) (resolver : Resolver) (anchors : Keyed Text)
    (single : Bool) :
    List Entity → Keyed Text → MemberTable →
      Except Failure (List Text × Keyed Text) × MemberTable
  | [], links, table => (.ok ([], links), table)
  | entity :: rest, links, table =>
    let filled := fillTable settings entity table
    match linkSignatures settings resolver entity links with
    | .error failure => (.error failure, filled)
    | .ok linked =>
      let section_ :=
        typeSection anchors settings.showsReferences single entity filled.toText
      let following := sections settings resolver anchors single rest linked filled
      (following.1.map fun (texts, all) => (section_ :: texts, all), following.2)

/-- The parts of a document put together, with its links set. -/
def compose (anchors : Keyed Text) (single : Bool) (entities : List Entity)
    (texts : List Text) (links : Keyed Text) : Text :=
  let contents :=
    if single then []
    else ["## Table of contents".toList, []] ++ entities.map (contentsLine anchors) ++ [[]]
  Text.trimEnd (Text.join ['\n']
    (contents ++ [linkNames links (Text.join ['\n'] texts)])) ++ ['\n']

/-- The link targets of the documented types. -/
def sectionLinks (anchors : Keyed Text) : Keyed Text :=
  anchors.map fun (name, anchor) => (name, '#' :: anchor)

/-- Assembles the document for some names. -/
def assemble (settings : DocumentSettings) (resolver : Resolver) (single : Bool)
    (names : List Text) (table : MemberTable) (state : Resolution) :
    Except Failure Text × MemberTable × Resolution :=
  match collect settings resolver [] names state with
  | (.error failure, after) => (.error failure, table, after)
  | (.ok [], after) => (.error .nothingToDocument, table, after)
  | (.ok entities, after) =>
    let anchors := anchorsOf entities
    let written := sections settings resolver anchors single entities (sectionLinks anchors) table
    (written.1.map fun (texts, links) => compose anchors single entities texts links,
      written.2, after)

end Document
end Docblock
