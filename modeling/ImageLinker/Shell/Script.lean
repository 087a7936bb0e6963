/-! Scripts as trees: words with what is to be expanded in them, and commands. -/
namespace ImageLinker.Shell

/-- What is done with a parameter that is unset, or empty too where a colon stands. -/
inductive Substitute where
  | useDefault
  | assignDefault
  | useAlternative
  | fail
  deriving DecidableEq, Repr, Inhabited

/-- What is cut off the value of a parameter. -/
inductive Trim where
  | start (longest : Bool)
  | finish (longest : Bool)
  deriving DecidableEq, Repr, Inhabited

inductive RedirectionKind where
  | read
  | write
  | overwrite
  | append
  | readWrite
  | duplicate
  | hereText
  deriving DecidableEq, Repr, Inhabited

mutual

/-- A piece of a word. Of an expansion it is told whether it stands in quotes. -/
inductive Piece where
  | literal (text : String) (quoted : Bool)
  | home (user : String)
  | parameter (name : String) (quoted : Bool)
  | length (name : String) (quoted : Bool)
  | substituted (name : String) (how : Substitute) (colon : Bool) (word : List Piece)
    (quoted : Bool)
  | trimmed (name : String) (how : Trim) (word : List Piece) (quoted : Bool)
  | output (commands : Command) (quoted : Bool)
  | arithmetic (expression : List Piece) (quoted : Bool)
  | malformed

inductive Redirection where
  | mk (descriptor : Nat) (kind : RedirectionKind) (word : List Piece)

/-- Commands; those that tell of faults themselves know the line in which they begin. -/
inductive Command where
  | nothing
  | simple (line : Nat) (assignments : List (String × List Piece)) (words : List (List Piece))
      (redirections : List Redirection)
  | pipeline (commands : List Command) (background : Bool)
  | negation (c : Command)
  | conjunction (a b : Command)
  | disjunction (a b : Command)
  | sequence (a b : Command)
  | background (line : Nat) (c : Command) (redirections : List Redirection)
  | subshell (line : Nat) (c : Command) (redirections : List Redirection)
  | conditional (condition thenPart elsePart : Command)
  | loop (whileSucceeds : Bool) (condition body : Command)
  | iteration (line : Nat) (name : String) (words : List (List Piece)) (body : Command)
  | selection (line : Nat) (word : List Piece) (branches : List (List (List Piece) × Command))
  | definition (line : Nat) (name : String) (body : Command)
  | redirected (line : Nat) (c : Command) (redirections : List Redirection)

end

abbrev Word := List Piece

instance : Inhabited Piece := ⟨.literal "" false⟩

instance : Inhabited Redirection := ⟨.mk 0 .read []⟩

instance : Inhabited Command := ⟨.nothing⟩

def isNameStart (c : Char) : Bool := c.isAlpha || c == '_'

def isNameRest (c : Char) : Bool := c.isAlphanum || c == '_'

def isName (text : String) : Bool :=
  match text.toList with
  | c :: rest => isNameStart c && rest.all isNameRest
  | [] => false

def splitAssignment? (text : String) : Option (String × String) :=
  let name := text.toList.takeWhile (· != '=')
  match text.toList.drop name.length with
  | _ :: value =>
    if isName (String.ofList name) then some (String.ofList name, String.ofList value) else none
  | [] => none

namespace Word

def assignment? : Word → Option (String × Word)
  | .literal text false :: rest =>
    (splitAssignment? text).map fun (name, value) =>
      (name, if value.isEmpty then rest else .literal value false :: rest)
  | _ => none

def plainText? : Word → Option String
  | [.literal text false] => some text
  | _ => none

/-- The name behind a tilde at the start of a text, and what follows it. The name has to end in the
text, or where the word ends. -/
def splitHome (inValue : Bool) (text : List Char) (isLast : Bool) : Option (String × List Char) :=
  match text with
  | '~' :: rest =>
    let name := rest.takeWhile fun c => c != '/' && !(inValue && c == ':')
    let behind := rest.drop name.length
    if behind.isEmpty && !isLast then none else some (String.ofList name, behind)
  | _ => none

/-- The pieces of a text that is not quoted, in which tildes behind colons stand for directories. -/
def homesInText : (fuel : Nat) → (done : List Char) → List Char → (isLast : Bool) → List Piece
  | 0, done, rest, _ => [.literal (String.ofList (done.reverse ++ rest)) false]
  | _ + 1, done, [], _ => if done.isEmpty then [] else [.literal (String.ofList done.reverse) false]
  | fuel + 1, done, ':' :: rest, isLast =>
    match splitHome true rest isLast with
    | some (user, rest) =>
      .literal (String.ofList (':' :: done).reverse) false :: .home user ::
        homesInText fuel [] rest isLast
    | none => homesInText fuel (':' :: done) rest isLast
  | fuel + 1, done, c :: rest, isLast => homesInText fuel (c :: done) rest isLast

/-- A word in which a tilde at the start stands for a directory. -/
def withHome : Word → Word
  | .literal text false :: rest =>
    match splitHome false text.toList rest.isEmpty with
    | some (user, behind) =>
      .home user :: (if behind.isEmpty then rest else .literal (String.ofList behind) false :: rest)
    | none => .literal text false :: rest
  | word => word

/-- The later pieces of a value, in which tildes behind colons stand for directories. -/
def withHomesBehindColons : Word → Word
  | [] => []
  | .literal text false :: rest =>
    homesInText (text.length + 1) [] text.toList rest.isEmpty ++ withHomesBehindColons rest
  | piece :: rest => piece :: withHomesBehindColons rest

/-- The value of an assignment, in which tildes at the start and behind colons stand for
directories. -/
def withHomes : Word → Word
  | .literal text false :: rest =>
    match splitHome true text.toList rest.isEmpty with
    | some (user, behind) =>
      .home user :: homesInText (behind.length + 1) [] behind rest.isEmpty ++
        withHomesBehindColons rest
    | none => withHomesBehindColons (.literal text false :: rest)
  | word => withHomesBehindColons word

end Word

end ImageLinker.Shell
