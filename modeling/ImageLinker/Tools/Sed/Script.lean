import ImageLinker.Tools.Regex

/-! Scripts that edit the lines of a text one after another. -/
namespace ImageLinker.Tools.Sed

/-- What a line is compared with; the last expression that was used if none is given. -/
abbrev Expression := Option Regex.Finder

inductive Address where
  | line (number : Nat)
  | step (first distance : Nat)
  | last
  | matching (e : Expression)
  deriving DecidableEq, Repr, Inhabited

inductive RangeEnd where
  | address (a : Address)
  | offset (count : Nat)
  | multiple (factor : Nat)
  deriving DecidableEq, Repr, Inhabited

inductive Selection where
  | all
  | single (a : Address)
  | range (first : Option Address) (last : RangeEnd)
  deriving DecidableEq, Repr, Inhabited

inductive LetterCase where
  | asIs
  | upper
  | lower
  deriving DecidableEq, Repr, Inhabited

inductive Part where
  | text (s : List Char)
  | group (number : Nat)
  | change (case : LetterCase) (onlyNext : Bool)
  deriving DecidableEq, Repr, Inhabited

inductive Target where
  | output
  /-- The output of the tool, also where lines are printed into files. -/
  | standard
  | errors
  | file (path : String)
  deriving DecidableEq, Repr, Inhabited

structure Substitution where
  expression : Expression
  parts : List Part
  number : Nat := 1
  all : Bool := false
  prints : Bool := false
  /-- What the text has become is done as a command, and its output takes the place of the text. -/
  runs : Bool := false
  printsFirst : Bool := false
  target : Option Target := none
  deriving DecidableEq, Repr, Inhabited

inductive BranchKind where
  | always
  | ifReplaced
  | unlessReplaced
  deriving DecidableEq, Repr, Inhabited

inductive Command where
  | block (finish : Nat)
  | nothing
  | branch (kind : BranchKind) (label : String)
  | append (text : String)
  | insert (text : String)
  | change (text : String)
  | delete
  | deleteFirst
  | hold (adds : Bool)
  | get (adds : Bool)
  | swap
  | show (width : Option Nat)
  | next (adds : Bool)
  | print
  | printFirst
  | lineNumber
  | run (text : Option String)
  | fileName
  | clear
  | quit (status : Nat) (prints : Bool)
  | readFile (path : String)
  | readLine (path : String)
  | write (target : Target) (onlyFirst : Bool)
  | substitute (s : Substitution)
  | transliterate (pairs : List (Char × Char))
  deriving DecidableEq, Repr, Inhabited

structure Instruction where
  selection : Selection := .all
  negated : Bool := false
  command : Command
  deriving DecidableEq, Repr, Inhabited

structure Script where
  instructions : Array Instruction := #[]
  labels : List (String × Nat) := []
  files : List String := []
  deriving DecidableEq, Repr, Inhabited

namespace Script

def missingLabel? (s : Script) : Option String :=
  s.instructions.toList.reverse.findSome? fun i =>
    match i.command with
    | .branch _ label =>
      if label.isEmpty || (s.labels.lookup label).isSome then none else some label
    | _ => none

end Script

end ImageLinker.Tools.Sed
