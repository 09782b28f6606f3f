/-!
# Positions in a source text

Positions are byte offsets into the UTF-8 form of the text, counted from zero.  They are recorded
in 32 bits, so in a text of four gibibytes or more they start again from zero.
-/

namespace Equational

/-! ## Byte lengths -/

def byteLength : List Char → Nat
  | [] => 0
  | c :: rest => c.utf8Size + byteLength rest

@[simp] theorem byteLength_nil : byteLength [] = 0 := rfl

@[simp] theorem byteLength_cons (c : Char) (rest : List Char) :
    byteLength (c :: rest) = c.utf8Size + byteLength rest := rfl

@[simp] theorem byteLength_append (first second : List Char) :
    byteLength (first ++ second) = byteLength first + byteLength second := by
  induction first with
  | nil => simp
  | cons c rest ih => simp [ih, Nat.add_assoc]

/-! ## Recorded positions -/

def positionCount : Nat := 4294967296

/-- What is recorded of an offset. -/
def recorded (offset : Nat) : Nat := offset % positionCount

theorem recorded_of_lt {offset : Nat} (h : offset < positionCount) : recorded offset = offset :=
  Nat.mod_eq_of_lt h

@[simp] theorem recorded_recorded_add (offset distance : Nat) :
    recorded (recorded offset + distance) = recorded (offset + distance) :=
  Nat.mod_add_mod offset _ distance

/-! ## Spans -/

/-- The bytes from `start` up to, but not including, `stop`. -/
structure Span where
  start : Nat
  stop : Nat
  deriving DecidableEq, Repr, Inhabited

namespace Span

def point (offset : Nat) : Span := ⟨offset, offset⟩

def between (start stop : Nat) : Span := ⟨recorded start, recorded stop⟩

def through (first last : Span) : Span := ⟨first.start, last.stop⟩

@[simp] theorem start_through (first last : Span) : (first.through last).start = first.start := rfl

@[simp] theorem stop_through (first last : Span) : (first.through last).stop = last.stop := rfl

end Span

end Equational
