import ImageLinker.Tools.Basic

/-! Tools that make, change, move and remove files. -/
namespace ImageLinker.Tools

open Unix Action

namespace FileTool

/-- Does something for each path, and tells of those for which it fails. -/
def forPaths (tool : String) (wording : (path reason : String) → String) (paths : List String)
    (change : Files.Tree → (path : String) → Except Files.Fault Files.Tree) : Action Nat := do
  let oks ← paths.mapM fun path => do
    match ← changeFiles fun files => change files (Text.decode path) with
    | .ok _ => return true
    | .error fault =>
      complain tool (wording path fault.reason)
      return false
  return if oks.all id then 0 else 1

def about (what : String) (path reason : String) : String :=
  what ++ " " ++ Quoting.inQuotes path ++ ": " ++ reason

def missing (tool : String) : Action Nat := do
  complain tool ("missing operand" ++ advice tool)
  return 1

/-- A path with those of all directories on the way to it, the shortest first. -/
def leadingPaths (path : String) : List String :=
  let rec go : (done : List Char) → List Char → List String
    | done, [] =>
      if done.isEmpty || done.head? == some '/' then [] else [String.ofList done.reverse]
    | done, '/' :: rest =>
      if done.isEmpty || done.head? == some '/' then go ('/' :: done) rest
      else String.ofList done.reverse :: go ('/' :: done) rest
    | done, c :: rest => go (c :: done) rest
  go [] path.toList

def lastName (path : String) : String :=
  let reversed := path.toList.reverse.dropWhile (· == '/')
  String.ofList (reversed.takeWhile (· != '/')).reverse

def without (files : Files.Tree) (place : Files.Place) : Files.Tree :=
  { files with entries := files.entries.filter fun (p, _) => !place.isPrefixOf p }

def below (files : Files.Tree) (place : Files.Place) : List (Files.Place × Files.Entry) :=
  files.entries.filter fun (p, _) => place.isPrefixOf p

end FileTool

open FileTool

/-- Makes a directory and those on the way to it, where they are missing. -/
def makeAll (tool : String) : (paths : List String) → Action Bool
  | [] => return true
  | path :: rest => do
    match ← changeFiles fun files =>
        match files.lookup (Text.decode path) with
        | .ok .directory => .ok files
        | .ok (.file ..) => .error (if rest.isEmpty then .alreadyExists else .notADirectory)
        | .error _ => files.makeDirectory (Text.decode path) with
    | .ok _ => makeAll tool rest
    | .error fault =>
      complain tool (about "cannot create directory" path fault.reason)
      return false

def mkdir : Program :=
  withOptions [⟨'p', "parents", .nothing⟩, ⟨'m', "mode", .text⟩, ⟨'v', "verbose", .nothing⟩]
    fun tool o => do
      if o.operands.isEmpty then missing tool
      else if o.has 'p' then
        let oks ← o.operands.mapM fun path => makeAll tool (leadingPaths path)
        return if oks.all id then 0 else 1
      else forPaths tool (about "cannot create directory") o.operands (·.makeDirectory ·)

def rmdir : Program :=
  withOptions [⟨'p', "parents", .nothing⟩, ⟨'v', "verbose", .nothing⟩,
    ⟨'\x01', "ignore-fail-on-non-empty", .nothing⟩] fun tool o =>
      if o.operands.isEmpty then missing tool
      else forPaths tool (about "failed to remove") o.operands fun files path => do
        let place ← files.resolve (Files.Path.dropTrailingSlashes path)
        match files.get? place with
        | none => .error .notFound
        | some (.file ..) => .error .notADirectory
        | some .directory =>
          if (below files place).length ≤ 1 then .ok (without files place)
          else .error .directoryNotEmpty

def pwd : Program :=
    withOptions [⟨'L', "logical", .nothing⟩, ⟨'P', "physical", .nothing⟩] fun tool _ => do
  print tool (Files.Path.ofNames ((← files).workingDirectory.map Text.encode) ++ "\n")
  return 0

/-- Lists names in order, one in a line. -/
def ls : Program :=
  withOptions ([⟨'a', "all", .nothing⟩, ⟨'A', "almost-all", .nothing⟩, ⟨'d', "directory", .nothing⟩,
    ⟨'r', "reverse", .nothing⟩, ⟨'1', "", .nothing⟩, ⟨'p', "", .nothing⟩,
    ⟨'F', "classify", .nothing⟩])
    fun tool o => do
      let files ← files
      let sorted := fun (names : List String) =>
        let names := names.mergeSort (· ≤ ·)
        if o.has 'r' then names.reverse else names
      let found := (sorted (if o.operands.isEmpty then ["."] else o.operands)).map fun path =>
        (path, files.resolve (Text.decode path) >>= fun place =>
          match files.get? place with
          | some entry => .ok (place, entry)
          | none => .error .notFound)
      found.forM fun (path, result) => do
        match result with
        | .ok _ => pure ()
        | .error (fault : Files.Fault) => complain tool (about "cannot access" path fault.reason)
      let isListed := fun (result : Except Files.Fault (Files.Place × Files.Entry)) =>
        match result with
        | .ok (_, .directory) => !o.has 'd'
        | _ => false
      let single := found.filter fun (_, result) => result.isOk && !isListed result
      let listed := found.filter fun (_, result) => isListed result
      single.forM fun (path, _) => print tool (path ++ "\n")
      listed.zipIdx.forM fun ((path, result), n) => do
        match result with
        | .error _ => pure ()
        | .ok (place, _) =>
          if 1 < o.operands.length then
            print tool ((if n = 0 && single.isEmpty then "" else "\n") ++ path ++ ":\n")
          let names := (files.namesAt place).map Text.encode
          let names := if o.has 'a' then "." :: ".." :: names
            else if o.has 'A' then names
            else names.filter fun name => name.toList.head? != some '.'
          let isDirectory := fun (name : String) =>
            files.get? (place ++ [Text.decode name]) == some .directory
          let marked := fun (name : String) =>
            if (o.has 'p' || o.has 'F') && isDirectory name then name ++ "/" else name
          print tool (String.join ((sorted names).map (marked · ++ "\n")))
      return if found.all fun (_, result) => result.isOk then 0 else 2

def touch : Program :=
  withOptions [⟨'a', "", .nothing⟩, ⟨'c', "no-create", .nothing⟩, ⟨'d', "date", .text⟩,
    ⟨'f', "", .nothing⟩, ⟨'m', "", .nothing⟩, ⟨'r', "reference", .text⟩,
    ⟨'t', "", .text⟩] fun tool o =>
      if o.operands.isEmpty then do
        complain tool ("missing file operand" ++ advice tool)
        return 1
      else forPaths tool (about "cannot touch") o.operands fun files path =>
        match files.lookup path with
        | .ok _ => .ok files
        | .error .notFound => if o.has 'c' then .ok files else files.writeBytes path []
        | .error fault => .error fault

def rm : Program :=
  withOptions [⟨'f', "force", .nothing⟩, ⟨'r', "recursive", .nothing⟩, ⟨'R', "", .nothing⟩,
    ⟨'d', "dir", .nothing⟩, ⟨'i', "", .nothing⟩, ⟨'I', "", .nothing⟩, ⟨'v', "verbose", .nothing⟩]
    fun tool o =>
      if o.operands.isEmpty then (if o.has 'f' then return 0 else missing tool)
      else forPaths tool (about "cannot remove") o.operands fun files path =>
        let isForced := o.has 'f'
        match files.resolve path with
        | .error fault =>
          if isForced && (fault == .notFound || fault == .notADirectory) then .ok files
          else .error fault
        | .ok place =>
          match files.get? place with
          | none => if isForced then .ok files else .error .notFound
          | some .directory =>
            if o.has 'r' || o.has 'R' then .ok (without files place)
            else if !o.has 'd' then .error .isADirectory
            else if (below files place).length ≤ 1 then .ok (without files place)
            else .error .directoryNotEmpty
          | some (.file ..) => .ok (files.erase place)

/-- What a mode makes of whether a file can be run. -/
def executableBy? (mode : String) (before : Bool) : Option Bool :=
  let cs := mode.toList
  if !cs.isEmpty && cs.all fun c => '0' ≤ c && c ≤ '7' then
    let n := ((Text.numberPrefix 8 cs.length none cs).1).getD 0
    some (n % 512 &&& 0o111 != 0)
  else
    (mode.splitOn ",").foldl (fun state clause => do
      let state ← state
      let who := clause.toList.takeWhile "ugoa".toList.contains
      let everyone := who.isEmpty || who.contains 'a' || "ugo".toList.all who.contains
      match clause.toList.drop who.length with
      | sign :: letters =>
        if !letters.all "rwxXstugo".toList.contains then none
        else
          let runs := letters.contains 'x' || letters.contains 'X' && state
          match sign with
          | '+' => some (state || runs)
          | '-' => some (state && !(runs && everyone))
          | '=' => some (runs || state && !everyone)
          | _ => none
      | [] => none) (some before)

def chmod : Program := fun _ c => do
  let isOption := fun (a : String) => ["-R", "-v", "-f", "-c", "--"].contains a
  match c.arguments.filter (!isOption ·) with
  | [] => missing c.name
  | [mode] =>
    complain c.name ("missing operand after " ++ Quoting.literal mode ++ advice c.name)
    return 1
  | mode :: paths =>
    if (executableBy? mode false).isNone then
      complain c.name ("invalid mode: " ++ Quoting.literal mode ++ advice c.name)
      return 1
    forPaths c.name (about "cannot access") paths fun files path => do
      let place ← files.resolve path
      match files.get? place with
      | none => .error .notFound
      | some .directory => .ok files
      | some (.file bytes executable) =>
        .ok (files.set place (.file bytes ((executableBy? mode executable).getD executable)))

structure TransferFault where
  message : String

/-- Copies or moves to a place; what stands there gives way unless it is a directory. -/
def transfer (files : Files.Tree) (moves recursive : Bool) (source target : String) :
    Except TransferFault Files.Tree := do
  let cannot := fun (what path : String) (fault : Files.Fault) =>
    TransferFault.mk (about what path fault.reason)
  let verb := if moves then "move" else "copy"
  let resolve := fun (path : String) =>
    files.resolve (Files.Path.dropTrailingSlashes (Text.decode path))
  let place ← (resolve source).mapError (cannot "cannot stat" source)
  let goal ← (resolve target).mapError (cannot ("cannot create regular file") target)
  match files.get? place, files.get? goal with
  | none, _ => throw (cannot "cannot stat" source .notFound)
  | some .directory, other =>
    if !moves && !recursive then
      throw ⟨"-r not specified; omitting directory " ++ Quoting.inQuotes source⟩
    if other.any (· != .directory) then
      throw ⟨"cannot overwrite non-directory " ++ Quoting.inQuotes target ++ " with directory " ++
        Quoting.inQuotes source⟩
    let moved := (below files place).map fun (p, e) => (goal ++ p.drop place.length, e)
    let kept := if moves then without files place else files
    return moved.foldl (fun t (p, e) => t.set p e) kept
  | some (.file bytes executable), other =>
    if place == goal then
      throw ⟨Quoting.inQuotes source ++ " and " ++ Quoting.inQuotes target ++ " are the same file"⟩
    match other with
    | some .directory =>
      throw ⟨"cannot overwrite directory " ++ Quoting.inQuotes target ++ " with non-directory"⟩
    | some (.file _ old) =>
      let kept := if moves then files.erase place else files
      return kept.set goal (.file bytes (if moves then executable else old))
    | none =>
      if target.endsWith "/" then
        throw ⟨s!"cannot {verb} " ++ Quoting.inQuotes source ++ " to " ++ Quoting.inQuotes target ++
          ": Not a directory"⟩
      let kept := if moves then files.erase place else files
      return kept.set goal (.file bytes executable)

def transferAll (moves : Bool) (tool : String) (o : Options) : Action Nat := do
  let recursive := ['r', 'R', 'a'].any o.has
  let (sources, target?) := match o.value? 't' with
    | some t => (o.operands, some t)
    | none => (o.operands.dropLast, if 1 < o.operands.length then o.operands.getLast? else none)
  match o.operands, target? with
  | [], _ =>
    complain tool ("missing file operand" ++ advice tool)
    return 1
  | a :: _, none =>
    complain tool ("missing destination file operand after " ++ Quoting.inQuotes a ++ advice tool)
    return 1
  | _, some target =>
    let isInto := !o.has 'T' && (← files).isDirectory (Text.decode target)
    if 1 < sources.length && !isInto then
      complain tool ("target " ++ Quoting.inQuotes target ++ ": No such file or directory")
      return 1
    let oks ← sources.mapM fun source => do
      let files ← files
      let goal := if isInto then Files.Path.join target (lastName source) else target
      let isThere := (files.lookup (Text.decode goal)).isOk
      if o.has 'n' && isThere then return true
      match transfer files moves recursive source goal with
      | .ok after =>
        let _ ← changeFiles fun _ => .ok after
        return true
      | .error fault =>
        complain tool fault.message
        return false
    return if oks.all id then 0 else 1

def transferKinds : List OptionKind :=
  [⟨'r', "recursive", .nothing⟩, ⟨'R', "", .nothing⟩, ⟨'a', "archive", .nothing⟩,
    ⟨'p', "", .nothing⟩, ⟨'f', "force", .nothing⟩, ⟨'i', "interactive", .nothing⟩,
    ⟨'n', "no-clobber", .nothing⟩, ⟨'v', "verbose", .nothing⟩, ⟨'t', "target-directory", .text⟩,
    ⟨'T', "no-target-directory", .nothing⟩, ⟨'d', "", .nothing⟩, ⟨'P', "", .nothing⟩,
    ⟨'L', "", .nothing⟩, ⟨'u', "update", .nothing⟩]

def cp : Program := withOptions transferKinds (transferAll false)

def mv : Program := withOptions transferKinds (transferAll true)

end ImageLinker.Tools
