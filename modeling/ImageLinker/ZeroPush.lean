import ImageLinker.Evm.Walk

/-!
Two zeros pushed by `PUSH0 DUP1` and by `PUSH0 PUSH0` are the same two words from two bytes. The
second form is the one that images with `PUSH0` use.
-/
namespace ImageLinker.ZeroPush

def sites (code : List UInt8) : List Nat :=
  let bytes := code.toArray
  (((Evm.instructions code).filter (·.opcode == Evm.Opcode.push0)).map (·.offset + 1)).filter
    fun next => bytes[next]? == some Evm.Opcode.dup1

def replace (code : List UInt8) : List UInt8 × List Nat :=
  let changed := sites code
  ((changed.foldl (fun bytes site => bytes.setIfInBounds site Evm.Opcode.push0)
    code.toArray).toList, changed)

end ImageLinker.ZeroPush
