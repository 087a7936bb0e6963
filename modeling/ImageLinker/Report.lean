import ImageLinker.Artifacts
import ImageLinker.Inspection

/-! The printed account of a build: a table of sections, then images and initcode in full. -/
namespace ImageLinker.Report

/-- A line of the table of modules. -/
structure Row where
  path : String
  sectionText : String
  runtimeBytes : Nat
  deriving DecidableEq, Repr, Inhabited

def rows (image : Image) : List Row :=
  image.modules.map fun s => ⟨s.path, LinkError.sectionText s.index, s.used⟩

def header : List String := ["file path", "section", "runtime bytes"]

def cells (row : Row) : List String := [row.path, row.sectionText, toString row.runtimeBytes]

def widths (lines : List (List String)) : List Nat :=
  lines.foldl (fun widths line => (widths.zip line).map fun (w, cell) => max w cell.utf8ByteSize)
    (header.map fun _ => 0)

def pad (width : Nat) (cell : String) : List Char :=
  cell.toList ++ List.replicate (width - cell.length) ' '

/-- Cells on the left of their columns, two spaces between columns and none at the end. -/
def renderLine (widths : List Nat) (line : List String) : String :=
  let columns := (widths.zip line).map fun (w, cell) => pad w cell
  String.ofList (Text.trimEnd ([' ', ' '].intercalate columns)) ++ "\n"

def renderTable (table : List Row) : String :=
  let lines := header :: table.map cells
  String.join (lines.map (renderLine (widths lines)))

def rule : String := String.ofList (List.replicate 64 '-') ++ "\n"

/-- A title that names the kind of target when there are two. -/
def title (what : String) (mode : Mode) (image : Image) : String :=
  match mode with
  | .single => what
  | .dual => what ++ " " ++ image.variant.text

def offsetText (offset : Nat) : String := "0x" ++ Hex.ofNat 4 offset

def renderStats (mode : Mode) (image : Image) : String :=
  title "Stats" mode image ++ ":\n" ++ renderTable (rows image) ++ rule

def renderRuntime (mode : Mode) (image : Image) : String :=
  title "Runtime" mode image ++ s!" ({image.length} bytes):\n" ++
    Hex.encode image.bytes ++ "\n" ++ rule

def renderDifferences (offsets : List Nat) : String :=
  s!"Variant differences ({offsets.length} offsets):\n" ++
    " ".intercalate (offsets.map offsetText) ++ "\n" ++ rule

def render (a : Artifacts) : String :=
  String.join (a.images.map (renderStats a.mode)) ++
    String.join (a.images.map (renderRuntime a.mode)) ++
    (match a.mode with
      | .single => ""
      | .dual => renderDifferences a.differing) ++
    s!"Initcode ({a.initcode.length} bytes):\n" ++ Hex.encode a.initcode ++ "\n" ++
    (match a.initcodeHash with
      | none => ""
      | some hash => rule ++ "Initcodehash:\n" ++ hash ++ "\n")

/-- All initcode first, then all code that it deploys. -/
def renderInspections (inspections : List Inspection) : String :=
  String.join (inspections.map fun i =>
    "Initcode " ++ i.variant.text ++ ":\n" ++ Hex.encode i.initcode ++ "\n") ++
  String.join (inspections.map fun i =>
    "Runtime " ++ i.variant.text ++ ":\n" ++ Hex.encode i.runtime ++ "\n")

end ImageLinker.Report
