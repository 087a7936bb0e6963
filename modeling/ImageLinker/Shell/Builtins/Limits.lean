import ImageLinker.Shell.Builtins.Basic

/-! Limits of what processes may use. A limit can be shown and checked; no process comes near
one. -/
namespace ImageLinker.Shell.Builtins

open Unix Run

/-- What a limit is called, and how much it allows if it sets an end. -/
structure Limit where
  letter : Char
  name : String
  allowed : Option Nat := none
  deriving DecidableEq, Repr, Inhabited

def limits : List Limit :=
  [⟨'t', "time(seconds)", none⟩, ⟨'f', "file(blocks)", none⟩, ⟨'d', "data(kbytes)", none⟩,
    ⟨'s', "stack(kbytes)", some 8192⟩, ⟨'c', "coredump(blocks)", some 0⟩,
    ⟨'m', "memory(kbytes)", none⟩, ⟨'l', "locked memory(kbytes)", some 8192⟩,
    ⟨'p', "process", some 128597⟩, ⟨'n', "nofiles", some 20000⟩, ⟨'v', "vmemory(kbytes)", none⟩,
    ⟨'w', "locks", none⟩, ⟨'r', "rtprio", some 0⟩]

def Limit.amount (l : Limit) : String := (l.allowed.map toString).getD "unlimited"

def Limit.line (l : Limit) : String :=
  l.name ++ "".pushn ' ' (20 - l.name.length) ++ " " ++ l.amount ++ "\n"

def ulimit : Builtin := fun arguments => do
  let (options, operands) ← options "HSatfdscmlpnvwr" arguments
  let asksAll := options.any (·.1 == 'a')
  let letters := (options.map (·.1)).filter fun c => c != 'H' && c != 'S' && c != 'a'
  let letter := letters.getLastD 'f'
  match operands with
  | [] =>
    let shown := limits.filter (·.letter == letter)
    print (String.join (if asksAll then limits.map Limit.line else shown.map (·.amount ++ "\n")))
  | amount :: rest =>
    if asksAll || !rest.isEmpty then fail "too many arguments"
    if amount != "unlimited" && !amount.toList.all Char.isDigit then fail "bad number"
  return 0

end ImageLinker.Shell.Builtins
