import ImageLinker.Duration
import ImageLinker.Files.Fault
import ImageLinker.Hex

/-! Why a build fails, and the one text of each cause. -/
namespace ImageLinker

/-- What is wrong with a configuration. -/
inductive Misconfiguration where
  | shiftOutOfRange (shift : Nat)
  | noModules
  /-- A list of modules names more than the selector can address. -/
  | tooManyModules (count : Nat)
  /-- An image would hold more modules than the selector can address. -/
  | selectorTooNarrow (count : Nat)
  | zeroTimeout
  | zeroJobs
  | threadsNotStarted (threads : Nat) (reason : String)
  | malformed (reason : String)
  deriving DecidableEq, Repr, Inhabited

namespace Misconfiguration

def message : Misconfiguration → String
  | .shiftOutOfRange shift => s!"section shift {shift} outside 5..=13"
  | .noModules => "no modules to link"
  | .tooManyModules count =>
    s!"{count} modules exceed the 255 sections a one-byte selector can address"
  | .selectorTooNarrow count => s!"{count} modules do not fit a one-byte selector"
  | .zeroTimeout => "timeout_secs must be positive"
  | .zeroJobs => "jobs must be positive"
  | .threadsNotStarted threads reason => s!"failed to start {threads} worker threads: {reason}"
  | .malformed reason => reason

end Misconfiguration

/-- Why a compiled shim cannot be made the head of an initcode. -/
inductive ShimFault where
  | noOffsetPlaceholder
  | noLengthPlaceholder
  | tooLong (size : Nat)
  /-- The compiled output has no boundary between its deploying and its deployed part. -/
  | noBoundary
  | stated (text : String)
  deriving DecidableEq, Repr, Inhabited

namespace ShimFault

def message : ShimFault → String
  | .noOffsetPlaceholder => "offset placeholder 6033 not found"
  | .noLengthPlaceholder => "length placeholder 61ffee not found"
  | .tooLong size => s!"shim is {size} bytes, its offset must fit one byte"
  | .noBoundary => "compiled shim has no RETURN INVALID boundary"
  | .stated text => text

end ShimFault

/-- Why a run of an external program gave no usable output. -/
inductive InvocationFault where
  | notStarted (fault : Files.Fault)
  | unreadableOutput (fault : Files.Fault)
  | exited (code : Nat)
  | signalled (number : Nat) (name : String)
  | noHexOutput (path : String)
  | stated (text : String)
  deriving DecidableEq, Repr, Inhabited

namespace InvocationFault

def message : InvocationFault → String
  | .notStarted fault => fault.message
  | .unreadableOutput fault => "failed to read output: " ++ fault.message
  | .exited code => s!"exited with exit status: {code}"
  | .signalled number name =>
    s!"exited with signal: {number}" ++ (if name.isEmpty then "" else " (" ++ name ++ ")")
  | .noHexOutput path => "no hex output for " ++ path
  | .stated text => text

end InvocationFault

inductive FileStep where
  | read (path : String)
  | createTemporary (dir : String)
  | createDirectory (path : String)
  | write (path : String)
  | obstructed (path : String)
  | stage (name : String)
  | stated (text : String)
  deriving DecidableEq, Repr, Inhabited

namespace FileStep

def message : FileStep → String
  | .read path => "failed to read " ++ path
  | .createTemporary dir => "failed to create temp file in " ++ dir
  | .createDirectory path => "failed to create " ++ path
  | .write path => "failed to write " ++ path
  | .obstructed path => "cannot write " ++ path
  | .stage name => "failed to stage " ++ name
  | .stated text => text

end FileStep

inductive LinkError where
  | compilerInvocation (program : String) (fault : InvocationFault)
  | compilerTimeout (program : String) (limit : Duration)
  | runtimeObjectNotFound (path : String)
  | sentinelNotFound (path : String) (sectionIndex : Nat)
  | sectionOverflow (path : String) (sectionIndex size capacity : Nat)
  | shimPatch (fault : ShimFault)
  | imageTooLarge (size limit : Nat)
  | variantMismatch (push0 legacy : Nat)
  | invalidHex (fault : Hex.Fault)
  | config (fault : Misconfiguration)
  | hash (reason : String)
  | io (step : FileStep) (fault : Files.Fault)
  deriving DecidableEq, Repr, Inhabited

namespace LinkError

def sectionText (index : Nat) : String := "0x" ++ Hex.ofNat 2 index

def message : LinkError → String
  | .compilerInvocation program fault => s!"failed to run {program}: " ++ fault.message
  | .compilerTimeout program limit => s!"{program} did not finish within " ++ limit.text
  | .runtimeObjectNotFound path => "no `object \"runtime\" \x7b code \x7b` block in " ++ path
  | .sentinelNotFound path index =>
    s!"probe bytes not found in compiler output for {path} (section " ++ sectionText index ++ ")"
  | .sectionOverflow path index size capacity =>
    s!"{path} needs {size} bytes but section " ++ sectionText index ++ s!" holds {capacity}"
  | .shimPatch fault => "cannot patch capability shim: " ++ fault.message
  | .imageTooLarge size limit =>
    s!"runtime image of {size} bytes does not fit a {limit}-byte length immediate"
  | .variantMismatch push0 legacy =>
    s!"variant images differ in length: {push0} (push0) vs {legacy} (legacy)"
  | .invalidHex fault => "invalid hex: " ++ fault.message
  | .config fault => "invalid configuration: " ++ fault.message
  | .hash reason => "hashing failed: " ++ reason
  | .io step fault => step.message ++ ": " ++ fault.message

end LinkError

/-- A call outside what a function accepts. A valid build makes none. -/
inductive Misuse where
  | sentinelWidth (width : Nat)
  | sectionOutsidePlan (index : Nat)
  | sectionOutOfOrder (index expected : Nat)
  | strayImages (count : Nat)
  /-- A length or an offset has more than 64 bits. -/
  | numberTooLarge (n : Nat)
  deriving DecidableEq, Repr, Inhabited

namespace Misuse

def message : Misuse → String
  | .sentinelWidth width => s!"sentinel length {width} out of range"
  | .sectionOutsidePlan index => s!"section {index} has no probes"
  | .sectionOutOfOrder index expected => s!"section {index} in the place of section {expected}"
  | .strayImages count => s!"{count} images for no mode"
  | .numberTooLarge n => s!"{n} has more than 64 bits"

def checkNumber (n : Nat) : Except Misuse Nat :=
  if n < UInt64.size then .ok n else .error (.numberTooLarge n)

end Misuse

/-- A build stops with an error it reports, or because it broke a rule of its own. -/
inductive Failure where
  | error (e : LinkError)
  | misuse (m : Misuse)
  deriving DecidableEq, Repr, Inhabited

def Failure.message : Failure → String
  | .error e => e.message
  | .misuse m => m.message

instance : Coe LinkError Failure := ⟨.error⟩

end ImageLinker
