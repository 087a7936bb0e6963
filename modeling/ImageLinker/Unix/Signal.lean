/-! Signals by number and by name, and what they do to a process that does not expect them. -/
namespace ImageLinker.Unix.Signal

def names : List String :=
  ["HUP", "INT", "QUIT", "ILL", "TRAP", "ABRT", "BUS", "FPE", "KILL", "USR1", "SEGV", "USR2",
    "PIPE", "ALRM", "TERM", "STKFLT", "CHLD", "CONT", "STOP", "TSTP", "TTIN", "TTOU", "URG", "XCPU",
    "XFSZ", "VTALRM", "PROF", "WINCH", "IO", "PWR", "SYS"]

def last : Nat := 64

def firstReal : Nat := 34

/-- The names of signals, with zero for the end of a process. -/
def label (number : Nat) : String :=
  if number = 0 then "EXIT"
  else
    match names[number - 1]? with
    | some name => name
    | none =>
      if number < firstReal then toString number
      else if number = firstReal then "RTMIN"
      else if number < 50 then s!"RTMIN+{number - firstReal}"
      else if number < last then s!"RTMAX-{last - number}"
      else "RTMAX"

def descriptions : List String :=
  ["Hangup", "Interrupt", "Quit", "Illegal instruction", "Trace/breakpoint trap", "Aborted",
    "Bus error", "Floating point exception", "Killed", "User defined signal 1",
    "Segmentation fault", "User defined signal 2", "Broken pipe", "Alarm clock", "Terminated",
    "Stack fault", "Child exited", "Continued", "Stopped (signal)", "Stopped",
    "Stopped (tty input)", "Stopped (tty output)", "Urgent I/O condition", "CPU time limit exceeded",
    "File size limit exceeded", "Virtual timer expired", "Profiling timer expired",
    "Window changed", "I/O possible", "Power failure", "Bad system call"]

def description (number : Nat) : String :=
  match descriptions[number - 1]? with
  | some text => text
  | none =>
    if number < firstReal then s!"Unknown signal {number}"
    else s!"Real-time signal {number - firstReal}"

def name? (number : Nat) : Option String := if number = 0 then none else names[number - 1]?

def kill : Nat := 9

def interrupt : Nat := 2

def quit : Nat := 3

def pipe : Nat := 13

def alarm : Nat := 14

def terminate : Nat := 15

def continue_ : Nat := 18

inductive Effect where
  | nothing
  | stops
  | ends
  deriving DecidableEq, Repr, Inhabited

def effect (number : Nat) : Effect :=
  if [17, 18, 23, 28].contains number then .nothing
  else if [19, 20, 21, 22].contains number then .stops
  else .ends

/-- The signals that no process can ignore or catch. -/
def isForced (number : Nat) : Bool := number == 9 || number == 19

end ImageLinker.Unix.Signal
