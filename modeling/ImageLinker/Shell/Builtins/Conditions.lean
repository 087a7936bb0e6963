import ImageLinker.Shell.Builtins.Basic
import ImageLinker.Unix.Condition

/-! Conditions as commands. -/
namespace ImageLinker.Shell.Builtins

open Unix Run

def test : Builtin := fun arguments => do
  match Condition.holds (← files) false (arguments.length + 1) arguments with
  | .ok holds => return if holds then 0 else 1
  | .error complaint => fail complaint

def bracket : Builtin := fun arguments => do
  if arguments.getLast? != some "]" then fail "missing ]"
  test arguments.dropLast

end ImageLinker.Shell.Builtins
