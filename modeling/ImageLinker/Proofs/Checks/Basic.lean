import ImageLinker.Error

/-!
Work with a check ahead of everything that is not defined for all values: positions in lists, cuts,
sums and differences, remainders, numbers of 64 bits, values that have to be there, and what is
asserted. Sums of positions in one list stay without a check: a list in memory is too short for them
to reach `2 ^ 64`.
-/
namespace ImageLinker

/-- A check that failed. -/
inductive Breach where
  | index (position length : Nat)
  | range (start stop length : Nat)
  | splitCharacter (position : Nat)
  | negative (a b : Nat)
  | zeroModulus
  | tooLarge (n : Nat)
  | missing
  | assertion
  /-- A branch that is never meant to be taken. -/
  | unreachable
  | endless
  deriving DecidableEq, Repr, Inhabited

/-- Checked work stops with an error that it reports, or at a check. -/
inductive Stop where
  | error (e : LinkError)
  | breach (b : Breach)
  deriving DecidableEq, Repr, Inhabited

abbrev Checked := Except Stop

namespace Checked

variable {α β : Type}

def breach (b : Breach) : Checked α := .error (.breach b)

def report (e : LinkError) : Checked α := .error (.error e)

def ofExcept (r : Except LinkError α) : Checked α := r.mapError .error

def get (l : List α) (i : Nat) : Checked α :=
  match l[i]? with
  | some a => .ok a
  | none => breach (.index i l.length)

def set (l : List α) (i : Nat) (a : α) : Checked (List α) :=
  if i < l.length then .ok (l.set i a) else breach (.index i l.length)

def range (l : List α) (start stop : Nat) : Checked (List α) :=
  if start ≤ stop ∧ stop ≤ l.length then .ok ((l.take stop).drop start)
  else breach (.range start stop l.length)

def sub (a b : Nat) : Checked Nat := if b ≤ a then .ok (a - b) else breach (.negative a b)

def subByte (a b : UInt8) : Checked UInt8 :=
  if b ≤ a then .ok (a - b) else breach (.negative a.toNat b.toNat)

def addByte (a b : UInt8) : Checked UInt8 :=
  if a.toNat + b.toNat < UInt8.size then .ok (a + b) else breach (.tooLarge (a.toNat + b.toNat))

def mod (a b : Nat) : Checked Nat := if b = 0 then breach .zeroModulus else .ok (a % b)

def number (n : Nat) : Checked Nat := if n < UInt64.size then .ok n else breach (.tooLarge n)

def expect (o : Option α) : Checked α :=
  match o with
  | some a => .ok a
  | none => breach .missing

def assert (p : Prop) [Decidable p] : Checked Unit := if p then .ok () else breach .assertion

theorem get_eq {l : List α} {i : Nat} {a : α} (h : l[i]? = some a) : get l i = .ok a := by
  rw [get, h]

theorem set_eq {l : List α} {i : Nat} (h : i < l.length) (a : α) : set l i a = .ok (l.set i a) :=
  if_pos h

theorem range_eq {l : List α} {start stop : Nat} (h : start ≤ stop) (h' : stop ≤ l.length) :
    range l start stop = .ok ((l.take stop).drop start) := if_pos ⟨h, h'⟩

theorem range_length {l : List α} {start : Nat} (h : start ≤ l.length) :
    range l start l.length = .ok (l.drop start) := by
  rw [range_eq h (Nat.le_refl _), List.take_length]

theorem sub_eq {a b : Nat} (h : b ≤ a) : sub a b = .ok (a - b) := if_pos h

theorem subByte_eq {a b : UInt8} (h : b ≤ a) : subByte a b = .ok (a - b) := if_pos h

theorem addByte_eq {a b : UInt8} (h : a.toNat + b.toNat < UInt8.size) :
    addByte a b = .ok (a + b) := if_pos h

theorem number_eq {n : Nat} (h : n < UInt64.size) : number n = .ok n := if_pos h

theorem assert_eq {p : Prop} [Decidable p] (h : p) : assert p = .ok () := if_pos h

theorem ok_bind (a : α) (f : α → Checked β) : (Except.ok a >>= f) = f a := rfl

theorem mapM_eq_ok {f : α → Checked β} {g : α → β} {l : List α} (h : ∀ a ∈ l, f a = .ok (g a)) :
    l.mapM f = .ok (l.map g) := by
  induction l with
  | nil => rfl
  | cons a rest ih =>
    obtain ⟨ha, hrest⟩ := List.forall_mem_cons.mp h
    rw [List.mapM_cons, ha, ok_bind, ih hrest, ok_bind]
    rfl

/-- Checked work comes to what other work comes to, which is no misuse: no check fails. -/
def Matches (x : Checked α) (y : Except Failure α) : Prop :=
  ∃ r : Except LinkError α, x = ofExcept r ∧ y = r.mapError .error

end Checked

end ImageLinker
