import ImageLinker.Probe

/-!
The start of a module's runtime code: `object "runtime" { code {` with white space and comments
anywhere between the tokens, and never inside a comment or a string. Texts are read as UTF-8 bytes;
every byte that decides anything is ASCII.
-/
namespace ImageLinker.Yul

def ascii (s : String) : List UInt8 := s.toUTF8.toList

def afterLine : List UInt8 → List UInt8
  | [] => []
  | 0x0a :: rest => rest
  | _ :: rest => afterLine rest

def afterBlock : List UInt8 → List UInt8
  | [] => []
  | 0x2a :: 0x2f :: rest => rest
  | _ :: rest => afterBlock rest

/-- What follows a comment at the start; a comment that is not closed takes all. -/
def afterComment? : List UInt8 → Option (List UInt8)
  | 0x2f :: 0x2f :: rest => some (afterLine rest)
  | 0x2f :: 0x2a :: rest => some (afterBlock rest)
  | _ => none

/-- What follows a string whose opening quote has been read. A backslash hides the byte behind
it. -/
def afterString : List UInt8 → List UInt8
  | [] => []
  | 0x5c :: _ :: rest => afterString rest
  | 0x22 :: rest => rest
  | _ :: rest => afterString rest

def isLetter (b : UInt8) : Bool := (0x41 ≤ b && b ≤ 0x5a) || (0x61 ≤ b && b ≤ 0x7a)

def isDigit (b : UInt8) : Bool := 0x30 ≤ b && b ≤ 0x39

/-- ASCII white space: tab, line feed, form feed, carriage return and space. -/
def isSpace (b : UInt8) : Bool :=
  b == 0x09 || b == 0x0a || b == 0x0c || b == 0x0d || b == 0x20

def beginsName (b : UInt8) : Bool := isLetter b || b == 0x5f || b == 0x24

def continuesName (b : UInt8) : Bool := beginsName b || isDigit b || b == 0x2e

theorem length_afterLine_le (l : List UInt8) : (afterLine l).length ≤ l.length := by
  fun_induction afterLine l <;> simp_all
  omega

theorem length_afterBlock_le (l : List UInt8) : (afterBlock l).length ≤ l.length := by
  fun_induction afterBlock l <;> simp_all <;> omega

theorem length_afterString_le (l : List UInt8) : (afterString l).length ≤ l.length := by
  fun_induction afterString l <;> simp_all <;> omega

theorem length_afterComment?_lt {l rest : List UInt8} (h : afterComment? l = some rest) :
    rest.length < l.length := by
  unfold afterComment? at h
  split at h
  · have := length_afterLine_le ‹List UInt8›
    cases h; simp_all only [List.length_cons]; omega
  · have := length_afterBlock_le ‹List UInt8›
    cases h; simp_all only [List.length_cons]; omega
  · cases h

def skipTrivia (l : List UInt8) : List UInt8 :=
  match _h : afterComment? l with
  | some rest => skipTrivia rest
  | none =>
    match l with
    | b :: rest => if isSpace b then skipTrivia rest else b :: rest
    | [] => []
termination_by l.length
decreasing_by
  · exact length_afterComment?_lt _h
  · simp

def expect? (token l : List UInt8) : Option (List UInt8) :=
  if token.isPrefixOf l then some (l.drop token.length) else none

/-- What follows the rest of a header whose `object` has been read. -/
def afterHeader? (l : List UInt8) : Option (List UInt8) := do
  let l ← expect? (ascii "\"runtime\"") (skipTrivia l)
  let l := skipTrivia (← expect? (ascii "\x7b") (skipTrivia l))
  if l.takeWhile continuesName = ascii "code" then
    expect? (ascii "\x7b") (skipTrivia (l.dropWhile continuesName))
  else none

/-- The text from the first header on, and the text behind that header. -/
def findHeader? (l : List UInt8) : Option (List UInt8 × List UInt8) :=
  match _h : afterComment? l with
  | some rest => findHeader? rest
  | none =>
    match l with
    | [] => none
    | b :: rest =>
      if b = 0x22 then findHeader? (afterString rest)
      else if beginsName b then
        let behind := rest.dropWhile continuesName
        if b :: rest.takeWhile continuesName = ascii "object" then
          match afterHeader? behind with
          | some body => some (b :: rest, body)
          | none => findHeader? behind
        else findHeader? behind
      else findHeader? rest
termination_by l.length
decreasing_by
  · exact length_afterComment?_lt _h
  · have := length_afterString_le rest
    simp only [List.length_cons]; omega
  · have : (rest.dropWhile continuesName).length ≤ rest.length :=
      (List.dropWhile_sublist _).length_le
    simp only [List.length_cons]; omega
  · have : (rest.dropWhile continuesName).length ≤ rest.length :=
      (List.dropWhile_sublist _).length_le
    simp only [List.length_cons]; omega
  · simp

def findRuntimeBlock (source : String) : Option (Nat × Nat) :=
  let bytes := source.toUTF8.toList
  (findHeader? bytes).map fun (start, body) =>
    (bytes.length - start.length, bytes.length - body.length)

/-- Splits characters behind as many of them as fit into a number of UTF-8 bytes. -/
def splitAtByte : (size : Nat) → List Char → List Char × List Char
  | size, c :: rest =>
    if 0 < size ∧ c.utf8Size ≤ size then
      let (front, back) := splitAtByte (size - c.utf8Size) rest
      (c :: front, back)
    else ([], c :: rest)
  | _, [] => ([], [])

/-- Puts the statements of probes right behind the runtime header. -/
def inject (source : String) (probes : List Probe) : Option String :=
  (findRuntimeBlock source).map fun (_, stop) =>
    let (front, back) := splitAtByte stop source.toList
    String.ofList front ++ String.join (probes.map Probe.yul) ++ String.ofList back

end ImageLinker.Yul
