/-! Unsigned 256-bit words as four 64-bit limbs, least significant limb first. -/
namespace ImageLinker.Evm

structure Word where
  limb0 : UInt64 := 0
  limb1 : UInt64 := 0
  limb2 : UInt64 := 0
  limb3 : UInt64 := 0
  deriving DecidableEq, Repr, Inhabited

namespace Word

def zero : Word := {}

def one : Word := { limb0 := 1 }

def ofUInt64 (n : UInt64) : Word := { limb0 := n }

def ofNat (n : Nat) : Word := ofUInt64 (UInt64.ofNat n)

def ofBool (b : Bool) : Word := if b then one else zero

def limbs (w : Word) : List UInt64 := [w.limb0, w.limb1, w.limb2, w.limb3]

def ofLimbs (l : List UInt64) : Word :=
  ⟨l[0]?.getD 0, l[1]?.getD 0, l[2]?.getD 0, l[3]?.getD 0⟩

def limb (w : Word) (i : Nat) : UInt64 := w.limbs[i]?.getD 0

def valueOf : List UInt64 → Nat
  | [] => 0
  | a :: as => a.toNat + 2 ^ 64 * valueOf as

def toNat (w : Word) : Nat := valueOf w.limbs

def isZero (w : Word) : Bool := w == zero

/-- The value, when it fits the address size of 64 bits. -/
def toIndex? (w : Word) : Option Nat :=
  if w.limb1 = 0 ∧ w.limb2 = 0 ∧ w.limb3 = 0 then some w.limb0.toNat else none

/-- The limb written by up to eight bytes, most significant first. -/
def limbOfBytes (bytes : List UInt8) : UInt64 :=
  bytes.foldl (fun n b => n <<< 8 ||| b.toUInt64) 0

def bytesOfLimb (x : UInt64) : List UInt8 :=
  [(x >>> 56).toUInt8, (x >>> 48).toUInt8, (x >>> 40).toUInt8, (x >>> 32).toUInt8,
    (x >>> 24).toUInt8, (x >>> 16).toUInt8, (x >>> 8).toUInt8, x.toUInt8]

/-- The last 32 bytes as a big-endian number; fewer bytes are filled with zeros on the left. -/
def ofBytes (bytes : List UInt8) : Word :=
  let tail := bytes.drop (bytes.length - 32)
  let full := List.replicate (32 - tail.length) 0 ++ tail
  ⟨limbOfBytes (full.drop 24), limbOfBytes ((full.drop 16).take 8),
    limbOfBytes ((full.drop 8).take 8), limbOfBytes (full.take 8)⟩

def toBytes (w : Word) : List UInt8 :=
  bytesOfLimb w.limb3 ++ bytesOfLimb w.limb2 ++ bytesOfLimb w.limb1 ++ bytesOfLimb w.limb0

/-- The word a push of the given width leaves: bytes missing at the end read as zero. -/
def ofImmediate (immediate : List UInt8) (width : Nat) : Word :=
  let width := min width 32
  let kept := immediate.take width
  ofBytes (kept ++ List.replicate (width - kept.length) 0)

def addLimbs : List UInt64 → List UInt64 → Bool → List UInt64
  | a :: as, b :: bs, carry =>
    let sum := a + b
    let total := sum + carry.toUInt64
    total :: addLimbs as bs (sum < a || total < sum)
  | _, _, _ => []

def subLimbs : List UInt64 → List UInt64 → Bool → List UInt64
  | a :: as, b :: bs, borrow =>
    let diff := a - b
    (diff - borrow.toUInt64) :: subLimbs as bs (a < b || diff < borrow.toUInt64)
  | _, _, _ => []

def mulStep (a b out : UInt64) (carry : Nat) : Nat :=
  out.toNat + a.toNat * b.toNat + carry

/-- Adds `a` times the limbs `bs` to `out`, keeping only the limbs that `out` has. -/
def mulRow (a : UInt64) : (bs out : List UInt64) → (carry : Nat) → List UInt64
  | b :: bs, o :: out, carry =>
    let acc := mulStep a b o carry
    UInt64.ofNat acc :: mulRow a bs out (acc / 2 ^ 64)
  | _, out, _ => out

/-- Long multiplication: one row for each limb of the left factor, each a limb further up. -/
def mulRows : (as bs out : List UInt64) → List UInt64
  | a :: as, bs, out =>
    match mulRow a bs out 0 with
    | [] => []
    | o :: rest => o :: mulRows as bs rest
  | [], _, out => out

def add (a b : Word) : Word := ofLimbs (addLimbs a.limbs b.limbs false)

def sub (a b : Word) : Word := ofLimbs (subLimbs a.limbs b.limbs false)

def mul (a b : Word) : Word := ofLimbs (mulRows a.limbs b.limbs (List.replicate 4 0))

def not (a : Word) : Word := ⟨~~~a.limb0, ~~~a.limb1, ~~~a.limb2, ~~~a.limb3⟩

def and (a b : Word) : Word :=
  ⟨a.limb0 &&& b.limb0, a.limb1 &&& b.limb1, a.limb2 &&& b.limb2, a.limb3 &&& b.limb3⟩

def or (a b : Word) : Word :=
  ⟨a.limb0 ||| b.limb0, a.limb1 ||| b.limb1, a.limb2 ||| b.limb2, a.limb3 ||| b.limb3⟩

/-- The byte at an index counted from the most significant end; zero past the last byte. -/
def byteAt (a index : Word) : Word :=
  match index.toIndex? with
  | some i => ofUInt64 (a.toBytes[i]?.getD 0).toUInt64
  | none => zero

def shiftLeftLimb (a : Word) (whole bits i : Nat) : UInt64 :=
  let own := if whole ≤ i then a.limb (i - whole) else 0
  let below := if whole + 1 ≤ i then a.limb (i - whole - 1) else 0
  if bits = 0 then own else own <<< UInt64.ofNat bits ||| below >>> UInt64.ofNat (64 - bits)

def shiftRightLimb (a : Word) (whole bits i : Nat) : UInt64 :=
  let own := a.limb (i + whole)
  let above := a.limb (i + whole + 1)
  if bits = 0 then own else own >>> UInt64.ofNat bits ||| above <<< UInt64.ofNat (64 - bits)

def shiftBy (limbAt : (whole bits i : Nat) → UInt64) (distance : Word) : Word :=
  match distance.toIndex? with
  | some n =>
    if n < 256 then ofLimbs ((List.range 4).map (limbAt (n / 64) (n % 64))) else zero
  | none => zero

def shiftLeft (a distance : Word) : Word := shiftBy a.shiftLeftLimb distance

def shiftRight (a distance : Word) : Word := shiftBy a.shiftRightLimb distance

/-- The order of values, decided at the most significant limb that differs. -/
def cmp (a b : Word) : Ordering :=
  (compare a.limb3 b.limb3).then ((compare a.limb2 b.limb2).then
    ((compare a.limb1 b.limb1).then (compare a.limb0 b.limb0)))

end Word

end ImageLinker.Evm
