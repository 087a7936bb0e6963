/-! Why a text is no document. -/
namespace ImageLinker.Yaml

inductive Fault where
  | forbiddenCharacter (c : Char)
  | strayCharacter (c : Char)
  | keyWithoutColon
  | misplaced (what : String)
  | malformed (what : String)
  | tabAsIndentation
  | unclosed
  | expected (what : String)
  | undefinedAlias (name : String)
  | undefinedTagHandle (handle : String)
  | severalDocuments
  | unknownKey (name : String)
  | repeatedKey (name : String)
  deriving DecidableEq, Repr, Inhabited

namespace Fault

def message : Fault → String
  | .forbiddenCharacter c => s!"control character {c.toNat} is not allowed"
  | .strayCharacter c => "found character " ++ String.singleton c ++ " that cannot start any token"
  | .keyWithoutColon => "could not find expected ':' behind a key"
  | .misplaced what => what ++ " is not allowed in this context"
  | .malformed what => "malformed " ++ what
  | .tabAsIndentation => "found a tab where indentation is expected"
  | .unclosed => "found the end of the text in a quoted scalar"
  | .expected what => "did not find expected " ++ what
  | .undefinedAlias name => "unknown anchor " ++ name
  | .undefinedTagHandle handle => "undefined tag handle " ++ handle
  | .severalDocuments => "more than one document"
  | .unknownKey name => "unknown field " ++ name
  | .repeatedKey name => "duplicate field " ++ name

end Fault

end ImageLinker.Yaml
