import ImageLinker.Files.Tree
import ImageLinker.Unix.Text

/-! What descriptors lead to: files with a position in them, and the two ends of pipes. -/
namespace ImageLinker.Unix

/-- What has been written to a pipe and not been read. The newest texts are first in `back`. -/
structure Pipe where
  front : List Char := []
  back : List String := []
  size : Nat := 0
  deriving DecidableEq, Repr, Inhabited

namespace Pipe

def capacity : Nat := 65536

def room (p : Pipe) : Nat := capacity - p.size

def push (p : Pipe) (text : String) : Pipe :=
  { p with back := text :: p.back, size := p.size + text.length }

def content (p : Pipe) : List Char :=
  if p.back.isEmpty then p.front else p.front ++ p.back.reverse.flatMap (·.toList)

def leaving (rest : List Char) (count : Nat) (p : Pipe) : Pipe :=
  { front := rest, back := [], size := p.size - count }

end Pipe

def portion (limit : Nat) (endMark : Option Char) (cs : List Char) : List Char :=
  match endMark with
  | none => cs.take limit
  | some mark =>
    let line := (cs.take limit).takeWhile (· != mark)
    if line.length < limit then line ++ (cs.drop line.length).take 1 else line

inductive Channel where
  | nothing
  | zeros
  | directory
  | file (place : Files.Place) (offset : Nat) (reads writes appends : Bool)
  | source (pipe : Nat)
  | drain (pipe : Nat)
  | output (number : Nat)
  deriving DecidableEq, Repr, Inhabited

namespace Channel

def isOutput : Channel → Bool
  | .output _ => true
  | _ => false

end Channel

def deviceNames : List String := ["null", "zero", "stdin", "stdout", "stderr", "fd", "tty"]

def devicePlace (name : String) : Files.Place := ["dev", name]

def descriptorAt? : Files.Place → Option Nat
  | ["dev", "stdin"] => some 0
  | ["dev", "stdout"] => some 1
  | ["dev", "stderr"] => some 2
  | ["dev", "fd", n] => n.toNat?
  | _ => none

/-- The bytes of a file after others were written at an offset; a gap is filled with zeros. -/
def overwrite (bytes : List UInt8) (offset : Nat) (new : List UInt8) : List UInt8 :=
  if offset = bytes.length then bytes ++ new
  else
    let front := bytes.take offset
    front ++ List.replicate (offset - front.length) 0 ++ new ++ bytes.drop (offset + new.length)

end ImageLinker.Unix
