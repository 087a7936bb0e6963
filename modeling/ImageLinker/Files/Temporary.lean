import ImageLinker.Files.Tree

/-!
Temporary files. Which names are tried for one, and whether the system makes it and takes all of its
bytes, is open: it is given with each request.
-/
namespace ImageLinker.Files

/-- How the system meets a request for a temporary file. -/
structure Attempt where
  middles : List String
  alphanumeric : ∀ middle ∈ middles, ∀ c ∈ middle.toList, c.isAlphanum
  /-- Why no file is made, though a name is free. -/
  refusal? : Option Fault := none
  /-- Why the file takes no more bytes, and how many it has taken by then. -/
  shortage? : Option (Fault × Nat) := none

def sixDigits (n : Nat) : String :=
  let digits := Nat.toDigits 10 n
  String.ofList (List.replicate (6 - digits.length) '0' ++ digits)

theorem isAlphanum_of_mem_sixDigits {n : Nat} {c : Char} (h : c ∈ (sixDigits n).toList) :
    c.isAlphanum := by
  rw [sixDigits, String.toList_ofList] at h
  rcases List.mem_append.mp h with hzero | hdigit
  · rw [List.eq_of_mem_replicate hzero]
    rfl
  · rw [Char.isAlphanum, Nat.isDigit_of_mem_toDigits (by decide) (by decide) hdigit, Bool.or_true]

/-- Tries numbers, and nothing stands in the way of the file. -/
def Attempt.numbered (tries : Nat) : Attempt where
  middles := (List.range tries).map sixDigits
  alphanumeric middle hmiddle c hc := by
    obtain ⟨n, _, rfl⟩ := List.mem_map.mp hmiddle
    exact isAlphanum_of_mem_sixDigits hc

namespace Tree

def firstFree? (t : Tree) : (paths : List String) → Except Fault (Option (String × Place))
  | [] => .ok none
  | path :: rest =>
    match t.resolve path with
    | .error fault => .error (.located fault path)
    | .ok place => if (t.get? place).isNone then .ok (some (path, place)) else t.firstFree? rest

/-- Makes a file without bytes in a directory, under the first name that is free, and gives its
absolute path and its place. -/
def createTemporary (t : Tree) (dir first last : String) (a : Attempt) :
    Except Fault (String × Place × Tree) := do
  let dir := Path.join (Path.ofNames t.workingDirectory) dir
  let some (path, place) ←
      t.firstFree? (a.middles.map fun middle => Path.join dir (first ++ middle ++ last))
    | throw (.located .tooManyTemporaries dir)
  match a.refusal? with
  | some fault => throw (.located fault path)
  | none => return (path, place, t.set place (.file [] false))

/-- Puts bytes into a file that has just been made. -/
def fill (t : Tree) (path : String) (place : Place) (bytes : List UInt8) (a : Attempt) :
    Except Fault Unit × Tree :=
  match a.shortage? with
  | some (fault, taken) =>
    (.error (.located fault path), t.set place (.file (bytes.take taken) false))
  | none => (.ok (), t.set place (.file bytes false))

end Tree

end ImageLinker.Files
