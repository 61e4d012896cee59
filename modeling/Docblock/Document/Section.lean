import Docblock.Document.Links
import Docblock.Documented.Entity
import Docblock.Markdown.Example

/-!
# Sections

Each documented type has a section under an anchor of its own. Anchors are the
slugs of the titles; of two types with one slug the later one gets the least
number behind it that makes its anchor new. A type that a section mentions is
linked to its section when it has one in the document.
-/

namespace Docblock.Document

open Documented

/-- The numbered forms of an anchor, from two on, as many as suffice to find a
new one. -/
def numberedAnchors (base : Text) (count : Nat) : List Text :=
  (List.range count).map fun n => base ++ '-' :: Text.ofNat (n + 2)

/-- The anchor of a section whose title has a given slug, new among the anchors
in use. -/
def freeAnchor (used : List Text) (base : Text) : Text :=
  if used.contains base then
    ((numberedAnchors base (used.length + 1)).find? (!used.contains ·)).getD base
  else base

/-- The anchors of types by name, in order. -/
def anchorsOf (entities : List Entity) : Keyed Text :=
  entities.foldl
    (fun anchors entity =>
      Keyed.put entity.name (freeAnchor (Keyed.values anchors) entity.anchor) anchors)
    []

/-- The anchor of the section that a name stands for; the exact name counts
first, then names that differ in case. -/
def anchorFor? (anchors : Keyed Text) (name : Text) : Option Text :=
  (Keyed.find? name anchors).or
    ((List.find? (fun entry => Text.lower entry.1 == Text.lower name) anchors).map (·.2))

/-- A type name, linked to its section if it has one. -/
def mention (anchors : Keyed Text) (name : Text) : Text :=
  match anchorFor? anchors name with
  | some anchor => link name ('#' :: anchor)
  | none => name

/-- The line that marks the start of a section and carries its anchor. -/
def anchorLine (anchor : Text) : Text :=
  "<hr /><a id=\"".toList ++ anchor ++ "\"></a>".toList

/-- The lines below the anchor that name the type: its title and its description,
or the notice that it is deprecated. -/
def headingLines (entity : Entity) : List Text :=
  match entity.prose.deprecation with
  | some notice =>
    ["### <del>".toList ++ entity.title ++ "</del>".toList, [],
      Text.trimEnd ("> **DEPRECATED** ".toList ++ notice), []]
  | none =>
    ["### ".toList ++ entity.title, []] ++
      (if entity.prose.description = [] then []
        else ["> ".toList ++ entity.prose.description, []])

/-- The lines with references, where they are shown. -/
def referenceLines (shown : Bool) (entity : Entity) : List Text :=
  if shown && !entity.prose.references.isEmpty then
    entity.prose.references.map (fun reference =>
      "See ".toList ++ reference ++ "<br />".toList) ++ [[]]
  else []

/-- The lines with the example of the type itself. -/
def exampleLines (entity : Entity) : List Text :=
  if entity.prose.exampleCode = [] then []
  else ["###### Example".toList, Markdown.exampleBlock entity.prose.exampleCode, []]

/-- The lines that name the parent and the interfaces. -/
def ancestryLines (anchors : Keyed Text) (entity : Entity) : List Text :=
  (match entity.parent.filter (· ≠ []) with
    | some parent => ["*This class extends ".toList ++ mention anchors parent ++ ['*'], []]
    | none => []) ++
  (if entity.interfaces = [] then []
    else
      ["*This class implements ".toList ++
        Text.join ", ".toList (entity.interfaces.map (mention anchors)) ++ ['*'], []])

/-- The section of a type. A document for a single type has no anchors. -/
def typeSection (anchors : Keyed Text) (showsReferences single : Bool) (entity : Entity)
    (table : Text) : Text :=
  let lines :=
    (if single then [] else [anchorLine ((Keyed.find? entity.name anchors).getD []), []]) ++
      headingLines entity ++ referenceLines showsReferences entity ++ exampleLines entity ++
      (if table = [] then [] else [table, []]) ++ ancestryLines anchors entity
  Text.trimEnd (Text.join ['\n'] lines) ++ ['\n']

/-- The line of a type in the table of contents. -/
def contentsLine (anchors : Keyed Text) (entity : Entity) : Text :=
  "- ".toList ++
    link (entity.title contentsFormat) ('#' :: (Keyed.find? entity.name anchors).getD [])

end Docblock.Document
