import ImageLinker.Shell.Builtins.Basic
import ImageLinker.Shell.Field

/-! Commands that change variables, parameters, settings and aliases. -/
namespace ImageLinker.Shell.Builtins

open Unix Run

def showVariables (command : String) (isShown : Variable → Bool) : Run Unit := do
  let shown := (← get).vars.filter (isShown ·.2)
  let sorted := shown.mergeSort fun a b => a.1 ≤ b.1
  let start := if command.isEmpty then "" else command ++ " "
  sorted.forM fun (name, v) =>
    let value := match v.value with
      | some value => "=" ++ quote value
      | none => ""
    print (start ++ name ++ value ++ "\n")

def splitValue (text : String) : String × Option String :=
  let name := text.toList.takeWhile (· != '=')
  match text.toList.drop name.length with
  | _ :: value => (String.ofList name, some (String.ofList value))
  | [] => (text, none)

def marking (command : String) (isMarked : Variable → Bool) (change : Variable → Variable) :
    Builtin := fun arguments => do
  let (options, names) ← options "p" arguments
  if !options.isEmpty || names.isEmpty then showVariables command isMarked
  else
    names.forM fun text => do
      match splitValue text with
      | (name, some value) =>
        assignNamed name value
        mark name change
      | (name, none) => mark name change
  return 0

def export_ : Builtin := marking "export" (·.exported) fun v => { v with exported := true }

def readonly : Builtin := marking "readonly" (·.isReadonly) fun v => { v with isReadonly := true }

/-- Keeps the values of variables for the end of the function; a dash stands for the settings. -/
def localVariables : Builtin := fun arguments => do
  if (← get).locals.isEmpty then fail "not in a function"
  arguments.forM fun text => do
    if text = "-" then save (.settings (← get).settings)
    else
      let (name, value) := splitValue text
      localize name value false
  return 0

def unset_ : Builtin := fun arguments => do
  let (options, names) ← options "vf" arguments
  let ofFunctions := (options.getLast?.map (·.1)) == some 'f'
  names.forM fun name => do
    if ofFunctions then
      modify fun s => { s with functions := s.functions.filter (·.1 != name) }
    else unset name
  return 0

def switch (on : Bool) (setting : Setting) : Run Unit := modify fun s =>
  let others := s.settings.filter (· != setting)
  { s with settings := if on then setting :: others else others }

def showSettings (asTable : Bool) : Run Unit := do
  let settings := (← get).settings
  Setting.table.forM fun (setting, name, _) => do
    let on := settings.contains setting
    if asTable then
      let blanks := String.ofList (List.replicate (16 - name.length) ' ')
      print (name ++ blanks ++ (if on then "on" else "off") ++ "\n")
    else print ("set " ++ (if on then "-o " else "+o ") ++ name ++ "\n")

def switchNamed (on : Bool) (name : String) : Run Unit := do
  match Setting.ofName? name with
  | some setting => switch on setting
  | none => fail ("Illegal option -o " ++ name)

def switchLetter (on : Bool) (letter : Char) : Run Unit := do
  match Setting.ofLetter? letter with
  | some setting => switch on setting
  | none => fail s!"Illegal option -{letter}"

/-- The settings in one word. Each `o` takes the name of a setting from the arguments behind. -/
def settingsInWord (on : Bool) : List Char → List String → Run (List String)
  | [], rest => return rest
  | 'o' :: cs, rest => do
    match rest with
    | name :: rest =>
      switchNamed on name
      settingsInWord on cs rest
    | [] =>
      if on then print "Current option settings\n"
      showSettings on
      settingsInWord on cs []
  | c :: cs, rest => do
    switchLetter on c
    settingsInWord on cs rest

def setPositional (positional : List String) : Run Unit := modify fun s =>
  { s with positional, optionIndex := 1, optionOffset := none }

def setFrom : (fuel : Nat) → List String → Run Unit
  | 0, _ => return
  | _ + 1, [] => return
  | fuel + 1, a :: rest => do
    match a.toList with
    | ['-'] =>
      switch false .xtrace
      switch false .verbose
      if !rest.isEmpty then setPositional rest
    | ['-', '-'] => setPositional rest
    | '-' :: cs => do setFrom fuel (← settingsInWord true cs rest)
    | '+' :: cs => do setFrom fuel (← settingsInWord false cs rest)
    | _ => setPositional (a :: rest)

def set_ : Builtin := fun arguments => do
  if arguments.isEmpty then showVariables "" (·.value.isSome)
  else setFrom (arguments.length + 1) arguments
  return 0

def shift : Builtin := fun arguments => do
  let count ← match arguments with
    | [] => pure 1
    | a :: _ => number a
  let positional := (← get).positional
  if count > positional.length then fail "can't shift that many"
  setPositional (positional.drop count.toNat)
  return 0

structure OptionSearch where
  index : Nat
  left : Option (List Char)

/-- Ends a search, with the option that was found, and puts away where to go on. -/
def endSearch (words : List String) (name option : String) (s : OptionSearch) (status : Int) :
    Run Int := do
  let v := ((← get).vars.lookup "OPTIND").getD {}
  checkWritable "OPTIND"
  put "OPTIND" { v with value := some (toString (s.index + 1)) }
  assignNamed name option
  let length := (words[s.index - 1]?.getD "").length
  modify fun st =>
    { st with optionIndex := s.index + 1, optionOffset := s.left.map fun cs => length - cs.length }
  return status

def dropVariable (name : String) : Run Unit := unset name

def nextOption (letters : List Char) (name : String) (words : List String) : Run Int := do
  let s ← get
  let begun := s.optionIndex - 1
  let isQuiet := letters.head? == some ':'
  let present := match s.optionOffset with
    | some n => (words[begun - 1]?.getD "").toList.drop n
    | none => []
  let atEnd := fun (index : Nat) => endSearch words name "?" ⟨index, none⟩ 1
  let search := fun (index : Nat) (c : Char) (cs : List Char) => do
    let known := if c = ':' then none else takesArgument? c (letters.dropWhile (· == ':'))
    match known with
    | none =>
      if isQuiet then assign "OPTARG" (String.singleton c)
      else
        complain s!"Illegal option -{c}\n"
        dropVariable "OPTARG"
      endSearch words name "?" ⟨index, some cs⟩ 0
    | some false =>
      assign "OPTARG" ""
      endSearch words name (String.singleton c) ⟨index, some cs⟩ 0
    | some true =>
      match cs, words[index]? with
      | _ :: _, _ =>
        assign "OPTARG" (String.ofList cs)
        endSearch words name (String.singleton c) ⟨index, none⟩ 0
      | [], some word =>
        assign "OPTARG" word
        endSearch words name (String.singleton c) ⟨index + 1, none⟩ 0
      | [], none =>
        if isQuiet then
          assign "OPTARG" (String.singleton c)
          endSearch words name ":" ⟨index, some []⟩ 0
        else
          complain s!"No arg for -{c} option\n"
          dropVariable "OPTARG"
          endSearch words name "?" ⟨index, some []⟩ 0
  match if begun = 0 then [] else present with
  | c :: cs => search begun c cs
  | [] =>
    match (words[begun]?.getD "").toList with
    | '-' :: '-' :: [] => atEnd (begun + 1)
    | '-' :: c :: cs => search (begun + 1) c cs
    | _ => atEnd begun

def getopts : Builtin := fun arguments => do
  match arguments with
  | letters :: name :: words =>
    let s ← get
    let words := if words.isEmpty then s.positional else words
    if s.optionIndex > words.length + 1 then
      modify fun s => { s with optionIndex := 1, optionOffset := none }
    nextOption letters.toList name words
  | _ => fail "Usage: getopts optstring var [arg...]"

structure Line where
  stretches : List Stretch := []
  current : List Mark := []
  escaped : Bool := false
  finished : Bool := false

namespace Line

def close (l : Line) : Line :=
  { l with stretches := ⟨l.current.reverse, .separators⟩ :: l.stretches, current := [] }

/-- Reads one more character. A backslash hides what follows it from all meaning. -/
def add (raw : Bool) (l : Line) (c : Char) : Line :=
  if l.finished || c == '\x00' then l
  else if l.escaped then
    let l := { l.close with escaped := false }
    if c = '\n' then l else { l with stretches := ⟨[.glyph ⟨c, true⟩], .none⟩ :: l.stretches }
  else if !raw && c == '\\' then { l with escaped := true }
  else if c = '\n' then { l with finished := true }
  else { l with current := .glyph ⟨c, false⟩ :: l.current }

/-- Reads up to the end of a line. The answer tells whether the end was there. -/
def readFrom (raw : Bool) : (fuel : Nat) → Line → Run (Line × Bool)
  | 0, l => return (l, false)
  | fuel + 1, l => do
    match ← ask (.read 0 4096 (some '\n')) with
    | .error _ => return (l, false)
    | .ok chunk =>
      if chunk.isEmpty then return (l, false)
      let l := chunk.toList.foldl (add raw) l
      if l.finished then return (l, true)
      readFrom raw fuel l

end Line

def manyPieces : Nat := 1000000000

def read_ : Builtin := fun arguments => do
  let (options, names) ← options "p:r" arguments
  if names.isEmpty then fail "arg count"
  let (line, ended) ← Line.readFrom (options.any (·.1 == 'r')) manyPieces {}
  let separators := ((← value? "IFS").getD " \t\n").toList
  let fields := Stretch.split separators (some names.length) line.close.stretches.reverse
  (names.zip (fields.map some ++ names.map fun _ => none)).forM fun (name, field) =>
    assignNamed name ((field.map Mark.text).getD "")
  return if ended then 0 else 1

def showAlias (name value : String) : Run Unit := print (name ++ "=" ++ quote value ++ "\n")

def aliases : Builtin := fun arguments => do
  if arguments.isEmpty then
    (inGroups variableGroups (← get).aliases).forM fun (n, v) => showAlias n v
  let oks ← arguments.mapM fun text => do
    let cs := text.toList
    let name := cs.take 1 ++ (cs.drop 1).takeWhile (· != '=')
    match cs.drop name.length with
    | _ :: value =>
      let name := String.ofList name
      let value := String.ofList value
      modify fun s =>
        if (s.aliases.lookup name).isSome then
          { s with aliases := s.aliases.map fun (n, v) => if n = name then (n, value) else (n, v) }
        else { s with aliases := (name, value) :: s.aliases }
      return true
    | [] =>
      match (← get).aliases.lookup text with
      | some value =>
        showAlias text value
        return true
      | none =>
        complain s!"alias: {text} not found\n"
        return false
  return if oks.all id then 0 else 1

def unalias : Builtin := fun arguments => do
  let (options, names) ← options "a" arguments
  if !options.isEmpty then
    modify fun s => { s with aliases := [] }
    return 0
  let oks ← names.mapM fun name => do
    if ((← get).aliases.lookup name).isSome then
      modify fun s => { s with aliases := s.aliases.filter (·.1 != name) }
      return true
    else
      complain s!"unalias: {name} not found\n"
      return false
  return if oks.all id then 0 else 1

end ImageLinker.Shell.Builtins
