import Docblock.Failure
import Docblock.MemberTable.Basic
import Docblock.Notice

/-!
# Choosing a layout

A layout is chosen by a slug: a known short name, or a module and a class in it
with a colon between them. An unknown short name falls back to the default
layout with a notice. A module has to exist, and the class in it has to be a
layout and not only the contract that layouts fulfil.
-/

namespace Docblock.Layout

/-- What a class of the catalogue is: a layout, or the contract of all layouts. -/
inductive Offer
  | contract
  | layout (offered : Layout)
deriving DecidableEq, Repr

/-- The short names. -/
def shortNames : Keyed Layout :=
  [("default".toList, .compact), ("columns".toList, .columns)]

/-- The package that holds all modules. -/
def package : Text := "phpdocs_md".toList

/-- The class of the contract. -/
def contractClass : Text × Offer := ("TableGenerator".toList, .contract)

/-- The class of the compact layout. -/
def compactClass : Text × Offer := ("MarkdownTableGenerator".toList, .layout .compact)

/-- The class of the layout with columns. -/
def columnsClass : Text × Offer := ("ColumnTableGenerator".toList, .layout .columns)

/-- The modules in which layouts are found, with the classes found there. -/
def layoutModules : Keyed (Keyed Offer) :=
  [("table_generator".toList, [contractClass]),
    ("markdown_table_generator".toList, [contractClass, compactClass]),
    ("column_table_generator".toList, [contractClass, columnsClass]),
    ("build_table_generator".toList, [contractClass, compactClass, columnsClass]),
    ("document_assembler".toList, [contractClass])]

/-- The modules that exist but hold no layout. -/
def otherModules : List Text :=
  ["__init__", "apply_info_to_entity", "class_resolver", "clean_doc_comment", "cli", "deep_merge",
    "doc_info", "entities", "errors", "find_classes_in_dir", "format_example_comment",
    "function_finder", "generator_options", "guess_return_type", "header_slug",
    "iter_source_files", "load_config", "load_signature_manifest", "md_codeblock", "md_table",
    "php_source_scanner", "raw_signature", "rewrite_class_links", "run_generation",
    "sanitize_declaration", "signature_registry", "tag_parser", "type_names"].map String.toList

/-- A dotted name. -/
def dotted (parts : List Text) : Text := Text.join ['.'] parts

/-- The classes of a module, or why there is no such module: the first part of
its name that is missing, below a module that holds no others or not. -/
def classesOf (name : Text) : Except Failure (Keyed Offer) :=
  let absent := fun (parts : List Text) (holder : Option Text) =>
    Except.error (Failure.layoutModuleMissing name (dotted parts) holder)
  if name = [] then .error .emptyModuleName
  else if name.head? = some '.' then .error .relativeModuleName
  else
    match Text.splitOn '.' name with
    | [] => .error .emptyModuleName
    | top :: rest =>
      if top ≠ package then absent [top] none
      else
        match rest with
        | [] => .ok []
        | module_ :: below =>
          match Keyed.find? module_ layoutModules, otherModules.contains module_ with
          | none, false => absent [top, module_] none
          | classes, _ =>
            match below with
            | [] => .ok (classes.getD [])
            | inner :: _ => absent [top, module_, inner] (some (dotted [top, module_]))

/-- The layout that a slug stands for, with a notice if the default stands in. -/
def ofSlug (slug : Text) : Except Failure (Layout × List Notice) :=
  let slug := Text.trim (if slug = [] then "default".toList else slug)
  if slug.contains ':' then
    (classesOf (Text.before ':' slug)).bind fun classes =>
      match Keyed.find? (Text.after ':' slug) classes with
      | none => .error (.notALayout slug)
      | some .contract => .error (.unfinishedLayout slug)
      | some (.layout layout) => .ok (layout, [])
  else
    match Keyed.find? slug shortNames with
    | some layout => .ok (layout, [])
    | none => .ok (.compact, [.unknownLayout slug])

end Docblock.Layout
