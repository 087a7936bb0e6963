import ImageLinker.Job

/-! A compiler takes a source file and a target and prints bytes in hexadecimal among other text. -/
namespace ImageLinker

structure Compiler where
  name : String
  compile : (path version : String) → StateM Files.Tree (Except LinkError String)

namespace Compiler

def bytesOfText (name path text : String) : Except LinkError (List UInt8) :=
  match Hex.lastToken text with
  | none => .error (.compilerInvocation name (.noHexOutput path))
  | some token => (Hex.decode token).mapError .invalidHex

def compileWith {ε : Type} [Coe LinkError ε]
    (read : (name path text : String) → Except ε (List UInt8)) (compiler : Compiler)
    (path version : String) : Work ε (List UInt8) := do
  let text ← fun files =>
    let (result, files) := compiler.compile path version files
    (result.mapError Coe.coe, files)
  Work.ofResult (read compiler.name path text)

def compileToBytes (compiler : Compiler) (path version : String) : Job (List UInt8) :=
  compiler.compileWith (fun name path text => (bytesOfText name path text).mapError .error) path
    version

end Compiler

end ImageLinker
