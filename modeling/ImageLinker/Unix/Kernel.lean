import ImageLinker.Unix.Channel
import ImageLinker.Unix.Process

/-!
What answers processes: files, channels, signals and a clock, and the order in which processes take
turns. Time passes where processes work or sleep, so a run that lasts too long is told from one that
does not without any real time.
-/
namespace ImageLinker.Unix

structure Task where
  identity : Identity
  process : Process
  descriptors : List (Nat × Nat) := []
  directory : Files.Place := []
  mask : Nat := 0o22
  dispositions : List (Nat × Disposition) := []
  arrived : List Nat := []
  wakes : Option Nat := none
  stopped : Bool := false
  deriving Inhabited

namespace Task

def channel? (t : Task) (descriptor : Nat) : Option Nat := t.descriptors.lookup descriptor

def disposition (t : Task) (number : Nat) : Disposition :=
  (t.dispositions.lookup number).getD .byDefault

def attach (t : Task) (descriptor : Nat) (channel : Option Nat) : Task :=
  { t with descriptors := (channel.map (descriptor, ·)).toList ++
      t.descriptors.filter (·.1 != descriptor) }

def privateDescriptors : Nat := 10

def renew (t : Task) : Task :=
  { t with
    descriptors := t.descriptors.filter (·.1 < privateDescriptors)
    dispositions := t.dispositions.filter (·.2 != .caught)
    arrived := [] }

end Task

structure Kernel where
  files : Files.Tree
  channels : Array Channel := #[]
  pipes : Array Pipe := #[]
  outputs : Array (List String) := #[]
  tasks : List Task := []
  remains : List (Identity × Ending) := []
  clock : Nat := 0
  nextId : Nat := 1
  result : Option (Ending × Nat) := none
  deriving Inhabited

/-- What becomes of a task that asked for something. -/
inductive Served where
  | goesOn (k : Kernel) (t : Task)
  | waits (k : Kernel) (t : Task)
  | gone (k : Kernel)

namespace Kernel

/-- How long it takes to start a process, in nanoseconds. -/
def forkTime : Nat := 100000

/-- How long it takes to become another program, in nanoseconds. -/
def renewTime : Nat := 400000

/-- How long it takes to answer what a process asks for, in nanoseconds. -/
def requestTime : Nat := 300

/-- How long it takes to find files or to open one, in nanoseconds. -/
def lookupTime : Nat := 20000

def byteTime : Nat := 25

def timeOf : Request → Nat
  | .write _ text => requestTime + byteTime * text.utf8ByteSize
  | .files .. | .openFile .. => lookupTime
  | _ => requestTime

def firstId : Nat := 4711

/-- Ends a task, which is none of the kernel's other tasks. The task that is being served is none of
them either. -/
def bury (k : Kernel) (t : Task) (ending : Ending) (served : Option Nat := none) : Kernel :=
  let self := t.identity.self
  let orphan := fun (i : Identity) => if i.parent = self then { i with parent := 1 } else i
  let tasks := k.tasks.map fun other => { other with identity := orphan other.identity }
  let isParent := fun (other : Task) => other.identity.self == t.identity.parent
  let isTold := tasks.any isParent || served == some t.identity.parent
  let own := if isTold then [(t.identity, ending)] else []
  let result := if self = firstId then some (ending, k.clock) else k.result
  { k with tasks, remains := k.remains.filter (·.1.parent != self) ++ own, result }

def receive (number : Nat) (t : Task) : Option Task :=
  let t := if number = Signal.continue_ then { t with stopped := false } else t
  let byDefault := match Signal.effect number with
    | .nothing => some t
    | .stops => some { t with stopped := true }
    | .ends => none
  if Signal.isForced number then byDefault
  else
    match t.disposition number with
    | .ignored => some t
    | .caught => some { t with arrived := t.arrived.filter (· != number) ++ [number] }
    | .byDefault => byDefault

def sendTo (k : Kernel) (served number : Nat) (target : Task) : Kernel :=
  let id := target.identity.self
  let others := { k with tasks := k.tasks.filter (·.identity.self != id) }
  match receive number target with
  | some target =>
    { k with tasks := k.tasks.map fun t => if t.identity.self = id then target else t }
  | none => others.bury target (.signalled number) (some served)

def signal (k : Kernel) (t : Task) (target : Int) (number : Nat)
    (next : Except Files.Fault Unit → Process) : Served :=
  let accepted := { t with process := next (.ok ()) }
  if target = t.identity.self then
    if number = 0 then .goesOn k accepted
    else
      match receive number accepted with
      | some t => .goesOn k t
      | none => .gone (k.bury t (.signalled number))
  else
    match k.tasks.find? fun other => target = other.identity.self with
    | some other =>
      if number = 0 then .goesOn k accepted
      else
        let k := k.sendTo t.identity.self number other
        let parent := t.identity.parent
        let isOrphan := other.identity.self = parent && !k.tasks.any (·.identity.self == parent)
        .goesOn k (if isOrphan then { accepted with identity := { t.identity with parent := 1 } }
          else accepted)
    | none =>
      if k.remains.any fun (i, _) => target = i.self then .goesOn k accepted
      else .goesOn k { t with process := next (.error .noSuchProcess) }

def newChannel (k : Kernel) (c : Channel) : Nat × Kernel :=
  (k.channels.size, { k with channels := k.channels.push c })

def newPipe (k : Kernel) : (Nat × Nat) × Kernel :=
  let n := k.pipes.size
  let (source, k) := { k with pipes := k.pipes.push {} }.newChannel (.source n)
  let (drain, k) := k.newChannel (.drain n)
  ((source, drain), k)

def holds (k : Kernel) (p : Channel → Bool) (t : Task) : Bool :=
  t.descriptors.any fun (_, c) => (k.channels[c]?).any p

/-- Whether any task can still use a channel of a kind. The one that is being served is among
them. -/
def isHeld (k : Kernel) (t : Task) (p : Channel → Bool) : Bool :=
  k.holds p t || k.tasks.any (k.holds p)

def openFile (k : Kernel) (t : Task) (path : String) (mode : OpenMode) :
    Except Files.Fault Nat × Kernel :=
  let files := { k.files with workingDirectory := t.directory }
  match files.resolve (Text.decode path) with
  | .error fault => (.error fault, k)
  | .ok place =>
    let opened := fun (k : Kernel) (c : Channel) =>
      let (n, k) := k.newChannel c
      (.ok n, k)
    let write := fun (bytes : List UInt8) (executable : Bool) (reads appends : Bool) =>
      let k := { k with files := k.files.set place (.file bytes executable) }
      opened k (.file place 0 reads true appends)
    if place = devicePlace "null" then opened k .nothing
    else if place = devicePlace "zero" then opened k .zeros
    else
      match descriptorAt? place with
      | some n =>
        match t.channel? n with
        | some c => (.ok c, k)
        | none => (.error .notFound, k)
      | none =>
        match files.get? place, mode with
        | some .directory, .read => opened k .directory
        | some .directory, .create => (.error .alreadyExists, k)
        | some .directory, _ => (.error .isADirectory, k)
        | some (.file ..), .read => opened k (.file place 0 true false false)
        | some (.file _ executable), .write => write [] executable false false
        | some (.file bytes executable), .append => write bytes executable false true
        | some (.file bytes executable), .readWrite => write bytes executable true false
        | some (.file ..), .create => (.error .alreadyExists, k)
        | none, .read => (.error .notFound, k)
        | none, mode => write [] false (mode = .readWrite) (mode = .append)

def readChannel (k : Kernel) (t : Task) (number limit : Nat) (endMark : Option Char) :
    Option (Except Files.Fault String × Kernel) :=
  match k.channels[number]? with
  | some .nothing => some (.ok "", k)
  | some .zeros => some (.ok (String.ofList (List.replicate limit '\x00')), k)
  | some .directory => some (.error .isADirectory, k)
  | some (.file place offset true writes appends) =>
    let bytes := match k.files.get? place with
      | some (.file bytes _) => bytes
      | _ => []
    let text := Text.ofBytes ((bytes.drop offset).take limit)
    let taken := portion limit endMark text.toList
    let channel := Channel.file place (offset + taken.length) true writes appends
    some (.ok (String.ofList taken), { k with channels := k.channels.set! number channel })
  | some (.source n) =>
    let pipe := k.pipes[n]?.getD {}
    if pipe.size = 0 then
      if k.isHeld t (· == .drain n) then none else some (.ok "", k)
    else
      let content := pipe.content
      let taken := portion limit endMark content
      let pipe := pipe.leaving (content.drop taken.length) taken.length
      some (.ok (String.ofList taken), { k with pipes := k.pipes.set! n pipe })
  | _ => some (.error .badDescriptor, k)

def positionOf? (k : Kernel) (t : Task) (descriptor : Nat) : Option Position :=
  match (t.channel? descriptor).bind fun number => k.channels[number]? with
  | some (.file place offset ..) =>
    match k.files.get? place with
    | some (.file bytes _) => some ⟨place, offset, bytes.length⟩
    | _ => none
  | _ => none

def goBack (k : Kernel) (t : Task) (descriptor count : Nat) : Kernel :=
  match (t.channel? descriptor).bind fun number => (k.channels[number]?).map (number, ·) with
  | some (number, .file place offset reads writes appends) =>
    let channel := Channel.file place (offset - count) reads writes appends
    { k with channels := k.channels.set! number channel }
  | _ => k

def writeChannel (k : Kernel) (t : Task) (descriptor number : Nat) (text : String)
    (next : Except Files.Fault Unit → Process) : Served :=
  let done := fun (k : Kernel) => Served.goesOn k { t with process := next (.ok ()) }
  match k.channels[number]? with
  | some .nothing | some .zeros => done k
  | some (.output n) => done { k with outputs := k.outputs.modify n (text :: ·) }
  | some (.file place offset reads true appends) =>
    match k.files.get? place with
    | some (.file bytes executable) =>
      let offset := if appends then bytes.length else offset
      let new := Text.toBytes text
      let channel := Channel.file place (offset + new.length) reads true appends
      let files := k.files.set place (.file (overwrite bytes offset new) executable)
      done { k with files, channels := k.channels.set! number channel }
    | _ => done k
  | some (.drain n) =>
    let pipe := k.pipes[n]?.getD {}
    if text.isEmpty then done k
    else if !k.isHeld t (· == .source n) then
      match receive Signal.pipe { t with process := next (.error .brokenPipe) } with
      | some t => .goesOn k t
      | none => .gone (k.bury t (.signalled Signal.pipe))
    else if pipe.room = 0 then .waits k t
    else if text.length ≤ pipe.room then
      done { k with pipes := k.pipes.set! n (pipe.push text) }
    else
      let cs := text.toList
      let pipes := k.pipes.set! n (pipe.push (String.ofList (cs.take pipe.room)))
      let rest := String.ofList (cs.drop pipe.room)
      .goesOn { k with pipes } { t with process := .asking (.write descriptor rest) next }
  | _ => .goesOn k { t with process := next (.error .badDescriptor) }

def reap (k : Kernel) (parent : Nat) : Option (Nat × Ending × Kernel) :=
  match k.remains.find? (·.1.parent == parent) with
  | some (i, ending) =>
    some (i.self, ending, { k with remains := k.remains.filter (·.1 != i) })
  | none => none

def wait (k : Kernel) (t : Task) (patience : Patience) (next : Waited → Process) : Served :=
  let self := t.identity.self
  match k.reap self with
  | some (child, ending, k) => .goesOn k { t with process := next (.ended child ending) }
  | none =>
    if !k.tasks.any (·.identity.parent == self) then .goesOn k { t with process := next .noChild }
    else if patience = .none ∨ (patience = .alert ∧ !t.arrived.isEmpty) then
      .goesOn k { t with process := next .notYet }
    else .waits k t

def sleep (k : Kernel) (t : Task) (nanoseconds : Nat) (next : Unit → Process) : Served :=
  let wakes := t.wakes.getD (k.clock + nanoseconds)
  if wakes ≤ k.clock then .goesOn k { t with process := next (), wakes := none }
  else .waits k { t with wakes := some wakes }

def changeFiles (k : Kernel) (t : Task) (change : Files.Tree → Files.Tree)
    (next : Files.Tree → Process) : Served :=
  let before := { k.files with workingDirectory := t.directory }
  let after := change before
  .goesOn { k with files := { after with workingDirectory := k.files.workingDirectory } }
    { t with process := next before, directory := after.workingDirectory }

def answer (k : Kernel) (t : Task) : (request : Request) → (request.Answer → Process) → Served
  | .work nanoseconds, next =>
    .goesOn { k with clock := k.clock + nanoseconds }
      { t with process := next t.arrived, arrived := [] }
  | .stall, _ => .waits k t
  | .files change, next => k.changeFiles t change next
  | .openFile path mode, next =>
    let (result, k) := k.openFile t path mode
    .goesOn k { t with process := next result }
  | .pipe, next =>
    let (ends, k) := k.newPipe
    .goesOn k { t with process := next ends }
  | .channel descriptor, next => .goesOn k { t with process := next (t.channel? descriptor) }
  | .attach descriptor channel, next =>
    .goesOn k { t.attach descriptor channel with process := next () }
  | .read descriptor limit endMark, next =>
    match t.channel? descriptor with
    | none => .goesOn k { t with process := next (.error .badDescriptor) }
    | some number =>
      match k.readChannel t number limit endMark with
      | some (.ok text, k) =>
        let k := { k with clock := k.clock + byteTime * text.length }
        .goesOn k { t with process := next (.ok text) }
      | some (result, k) => .goesOn k { t with process := next result }
      | none =>
        if t.arrived.isEmpty then .waits k t
        else .goesOn k { t with process := next (.error .interrupted) }
  | .write descriptor text, next =>
    match t.channel? descriptor with
    | none => .goesOn k { t with process := next (.error .badDescriptor) }
    | some number => k.writeChannel t descriptor number text next
  | .position descriptor, next =>
    .goesOn k { t with process := next (k.positionOf? t descriptor) }
  | .unread descriptor count, next =>
    .goesOn (k.goBack t descriptor count) { t with process := next () }
  | .wait patience, next => k.wait t patience next
  | .sleep nanoseconds, next => k.sleep t nanoseconds next
  | .signal target number, next => k.signal t target number next
  | .dispose number how, next =>
    .goesOn k { t with
      process := next (t.disposition number)
      dispositions := (number, how) :: t.dispositions.filter (·.1 != number) }
  | .identity, next => .goesOn k { t with process := next t.identity }
  | .mask new, next => .goesOn k { t with process := next t.mask, mask := new.getD t.mask }
  | .renew, next =>
    .goesOn { k with clock := k.clock + renewTime } { t.renew with process := next () }

def serve (k : Kernel) (t : Task) : Served :=
  if t.stopped then .waits k t
  else
    match t.process with
    | .ended ending => .gone (k.bury t ending)
    | .forking child next =>
      let id := k.nextId
      let started : Task :=
        { t with process := child, identity := ⟨id, t.identity.self⟩, arrived := [] }
      let clock := k.clock + forkTime
      .goesOn { k with clock, nextId := id + 1, tasks := k.tasks ++ [started] }
        { t with process := next id }
    | .asking request next =>
      { k with clock := k.clock + timeOf request }.answer t request next

/-- How much a process may ask for before others have their turns. -/
def turnLength : Nat := 256

/-- Lets a task go on until it has to wait or its turn is over. Tells whether it went on at all. -/
def turn : (left : Nat) → (moved : Bool) → Kernel → Task → Kernel × Bool
  | 0, moved, k, t => ({ k with tasks := k.tasks ++ [t] }, moved)
  | left + 1, moved, k, t =>
    match k.serve t with
    | .goesOn k t => turn left true k t
    | .waits k t => ({ k with tasks := k.tasks ++ [t] }, moved)
    | .gone k => (k, true)

/-- Gives each task its turn. Tells whether any went on. -/
def round (k : Kernel) : Kernel × Bool :=
  (k.tasks.map (·.identity.self)).foldl (fun (k, moved) id =>
    match k.tasks.find? (·.identity.self == id) with
    | some t =>
      let others := { k with tasks := k.tasks.filter (·.identity.self != id) }
      let (k, went) := others.turn turnLength false t
      (k, moved || went)
    | none => (k, moved)) (k, false)

def nextWake? (k : Kernel) : Option Nat :=
  ((k.tasks.filter (!·.stopped)).filterMap (·.wakes)).min?

/-- Whether nothing more can be learned from a run: its time is over, or the first process has ended
and none is left that could write to its outputs. -/
def isOver (limit : Nat) (k : Kernel) : Bool :=
  match k.result with
  | none => limit ≤ k.clock
  | some _ => !k.tasks.any (k.holds Channel.isOutput)

/-- Lets all processes go on until the run is over or none can go on. -/
def run (limit : Nat) : (fuel : Nat) → Kernel → Kernel
  | 0, k => k
  | fuel + 1, k =>
    if k.isOver limit then k
    else
      match k.round with
      | (k, true) => run limit fuel k
      | (k, false) =>
        match k.nextWake? with
        | some clock => run limit fuel { k with clock := max clock k.clock }
        | none => k

end Kernel

end ImageLinker.Unix
