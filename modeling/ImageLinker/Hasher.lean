import ImageLinker.Invocation
import ImageLinker.Job

/-! A program that prints the digest of bytes given in hexadecimal. -/
namespace ImageLinker

structure Hasher where
  program : String
  limit : Duration
  deriving DecidableEq, Repr, Inhabited

namespace Hasher

def digestOfText (program text : String) : Except LinkError String :=
  match Hex.lastToken text with
  | none => .error (.hash (program ++ " printed no digest"))
  | some token => .ok ("0x" ++ token.toLower)

def digest (h : Hasher) (host : Host) (bytes : List UInt8) : Job String := do
  let i : Invocation := ⟨h.program, ["keccak", "0x" ++ Hex.encode bytes], h.limit⟩
  let text ← fun files =>
    let (result, files) := host.print i files
    (result.mapError fun e => .error (.hash e.message), files)
  Work.ofExcept (digestOfText h.program text)

end Hasher

end ImageLinker
