import Equational.Token.Literal

/-!
# What a string literal takes

A literal never reaches beyond the text it is read from.  One that the text does not leave open
depends only on the characters that it takes, and on the line end behind them if that ends it.
-/

namespace Equational.Token

/-! ## Hexadecimal digits -/

structure IsHexDigitFor (value : Nat) (digit : Char) : Prop where
  lt : value < 16
  shape : digit = value.digitChar ∨ digit = value.digitChar.toUpper

theorem IsHexDigitFor.hexDigit_eq {value : Nat} {digit : Char} (h : IsHexDigitFor value digit) :
    hexDigit? digit = some value := by
  have hdigits : ∀ number : Fin 16, hexDigit? number.val.digitChar = some number.val ∧
      hexDigit? number.val.digitChar.toUpper = some number.val := by
    decide
  obtain ⟨hlower, hupper⟩ := hdigits ⟨value, h.lt⟩
  rcases h.shape with rfl | rfl
  · exact hlower
  · exact hupper

theorem isHexDigitFor_of_hexDigit {digit : Char} {value : Nat} (h : hexDigit? digit = some value) :
    IsHexDigitFor value digit := by
  have hchars : ∀ number : Fin 128, ∀ value ∈ hexDigit? (Char.ofNat number),
      value < 16 ∧ (Char.ofNat number = value.digitChar ∨
        Char.ofNat number = value.digitChar.toUpper) := by
    decide
  have hsmall : digit.toNat < 128 := by
    have hbound (last : Char) (hlast : last.toNat < 128) (hle : digit ≤ last) :
        digit.toNat < 128 :=
      Nat.lt_of_le_of_lt hle hlast
    unfold hexDigit? at h
    split at h
    · exact hbound '9' (by decide) (‹_ ∧ _›).2
    · split at h
      · exact hbound 'f' (by decide) (‹_ ∧ _›).2
      · split at h
        · exact hbound 'F' (by decide) (‹_ ∧ _›).2
        · cases h
  have hdigit := hchars ⟨digit.toNat, hsmall⟩
  rw [Char.ofNat_toNat] at hdigit
  obtain ⟨hlt, hshape⟩ := hdigit value h
  exact ⟨hlt, hshape⟩

theorem isHexDigit_iff {digit : Char} : isHexDigit digit ↔ ∃ value, IsHexDigitFor value digit := by
  rw [isHexDigit, Option.isSome_iff_exists]
  exact ⟨fun ⟨value, h⟩ => ⟨value, isHexDigitFor_of_hexDigit h⟩,
    fun ⟨value, h⟩ => ⟨value, h.hexDigit_eq⟩⟩

/-! ## Sizes -/

@[simp] theorem LiteralReading.size_take (reading : LiteralReading) (count : Nat) (c : Char) :
    (reading.take count c).size = reading.size + count := rfl

@[simp] theorem LiteralReading.size_skip (reading : LiteralReading) (count : Nat) :
    (reading.skip count).size = reading.size + count := rfl

@[simp] theorem LiteralReading.size_reject (reading : LiteralReading) (count : Nat)
    (escape : List Char) : (reading.reject count escape).size = reading.size + count := rfl

@[simp] theorem LiteralReading.size_finish (reading : LiteralReading) (ending : LiteralEnd) :
    (reading.finish ending).size = reading.size := rfl

@[simp] theorem LiteralReading.ending_finish (reading : LiteralReading) (ending : LiteralEnd) :
    (reading.finish ending).ending = ending := rfl

/-! ## Single steps -/

theorem readLiteral_escape {escape : Char} (hline : escape ≠ '\n') (hhex : escape ≠ 'x')
    (reading : LiteralReading) (rest : List Char) :
    readLiteral reading ('\\' :: escape :: rest) =
      match simpleEscape? escape with
      | some meaning => readLiteral (reading.take 2 meaning) rest
      | none => readLiteral (reading.reject 2 [escape]) rest := by
  cases hmeaning : simpleEscape? escape <;> simp [readLiteral, hhex, hmeaning]

theorem readLiteral_plain {c : Char} (hquote : c ≠ '"') (hline : c ≠ '\n') (hescape : c ≠ '\\')
    (reading : LiteralReading) (rest : List Char) :
    readLiteral reading (c :: rest) = readLiteral (reading.take 1 c) rest := by
  rw [readLiteral] <;> simp [hquote, hline, hescape]

theorem readLiteral_noDigit {rest : List Char} (h : ∀ c ∈ rest.head?, hexDigit? c = none)
    (reading : LiteralReading) :
    readLiteral reading ('\\' :: 'x' :: rest) = readLiteral (reading.reject 2 ['x']) rest := by
  match rest with
  | [] => rfl
  | [high] => simp [readLiteral, isHexDigit, h high rfl]
  | high :: low :: rest => simp only [readLiteral, h high rfl]

theorem readLiteral_oneDigit {high : Char} {value : Nat} (hhigh : hexDigit? high = some value)
    {rest : List Char} (h : ∀ c ∈ rest.head?, hexDigit? c = none) (reading : LiteralReading) :
    readLiteral reading ('\\' :: 'x' :: high :: rest) =
      readLiteral (reading.reject 3 ['x', high]) rest := by
  match rest with
  | [] => simp [readLiteral, isHexDigit, hhigh]
  | low :: rest => simp only [readLiteral, hhigh, h low rfl]

/-! ## What a literal takes -/

/-- A literal that the text does not leave open takes some characters from it, up to a closing quote
or a line end.  What stands behind them makes no difference. -/
structure Literal.Takes (literal : Literal) (reading : LiteralReading)
    (body taken rest : List Char) :
    Prop where
  body : body = taken ++ rest
  size : literal.size = reading.size + taken.length
  closed : literal.ending = .closed → ∃ front, taken = front ++ ['"']
  atLineEnd : literal.ending = .atLineEnd → ∃ tail, rest = '\n' :: tail
  again : ∀ other, (literal.ending = .atLineEnd → ∃ tail, other = '\n' :: tail) →
    readLiteral reading (taken ++ other) = literal

namespace Literal.Takes

variable {literal : Literal} {reading next : LiteralReading} {body taken rest : List Char}

theorem take_append (h : literal.Takes reading body taken rest) (hsize : reading.size = 0)
    (other : List Char) : (taken ++ other).take literal.size = taken := by
  rw [h.size, hsize, Nat.zero_add, List.take_left]

theorem take_eq (h : literal.Takes reading body taken rest) (hsize : reading.size = 0) :
    body.take literal.size = taken := by
  rw [h.body, h.take_append hsize]

theorem head_eq (h : literal.Takes reading body taken rest) (hending : literal.ending ≠ .atTextEnd)
    {other : List Char} (hother : literal.ending = .atLineEnd → ∃ tail, other = '\n' :: tail) :
    (taken ++ other).head? = body.head? := by
  rw [h.body]
  cases taken with
  | cons c taken => rfl
  | nil =>
    cases hkind : literal.ending with
    | closed =>
      obtain ⟨front, hfront⟩ := h.closed hkind
      simp at hfront
    | atLineEnd =>
      obtain ⟨tail, rfl⟩ := h.atLineEnd hkind
      obtain ⟨tail', rfl⟩ := hother hkind
      rfl
    | atTextEnd => exact absurd hkind hending

theorem prepend (h : literal.Takes next body taken rest) (front : List Char)
    (hsize : next.size = reading.size + front.length)
    (hagain : ∀ other, (literal.ending = .atLineEnd → ∃ tail, other = '\n' :: tail) →
      readLiteral reading (front ++ (taken ++ other)) = readLiteral next (taken ++ other)) :
    literal.Takes reading (front ++ body) (front ++ taken) rest where
  body := by rw [h.body, List.append_assoc]
  size := by
    rw [h.size, hsize, List.length_append, Nat.add_assoc]
  closed hending := by
    obtain ⟨inner, rfl⟩ := h.closed hending
    exact ⟨front ++ inner, (List.append_assoc _ _ _).symm⟩
  atLineEnd := h.atLineEnd
  again other hother := by
    rw [List.append_assoc, hagain other hother, h.again other hother]

end Literal.Takes

theorem exists_takes {reading : LiteralReading} {body : List Char}
    (h : (readLiteral reading body).ending ≠ .atTextEnd) :
    ∃ taken rest, (readLiteral reading body).Takes reading body taken rest := by
  -- Each case gives the characters that the reading takes at once.
  fun_induction readLiteral reading body
  case case1 | case4 | case9 => simp at h
  case case2 reading rest =>
    exact ⟨['"'], rest, rfl, rfl, fun _ => ⟨[], rfl⟩, nofun, fun _ _ => rfl⟩
  case case3 reading rest =>
    refine ⟨[], '\n' :: rest, rfl, rfl, nofun, fun _ => ⟨rest, rfl⟩, fun other hother => ?_⟩
    obtain ⟨tail, rfl⟩ := hother rfl
    rfl
  case case5 reading rest =>
    refine ⟨['\\'], '\n' :: rest, rfl, rfl, nofun, fun _ => ⟨rest, rfl⟩, fun other hother => ?_⟩
    obtain ⟨tail, rfl⟩ := hother rfl
    rfl
  case case6 reading high low rest value digit hlow hhigh ih =>
    obtain ⟨taken, rest, htakes⟩ := ih h
    refine ⟨_, rest, htakes.prepend ['\\', 'x', high, low] rfl fun other _ => ?_⟩
    simp only [List.cons_append, List.nil_append, readLiteral, hhigh, hlow]
  case case7 reading high low rest value hlow hhigh ih =>
    obtain ⟨taken, rest, htakes⟩ := ih h
    refine ⟨_, rest, htakes.prepend ['\\', 'x', high] rfl fun other hother => ?_⟩
    have hhead : ∀ c ∈ (taken ++ other).head?, hexDigit? c = none := by
      rw [htakes.head_eq h hother]
      rintro c ⟨⟩
      exact hlow
    exact readLiteral_oneDigit hhigh hhead reading
  case case8 reading high low rest hhigh ih =>
    obtain ⟨taken, rest, htakes⟩ := ih h
    refine ⟨_, rest, htakes.prepend ['\\', 'x'] rfl fun other hother => ?_⟩
    have hhead : ∀ c ∈ (taken ++ other).head?, hexDigit? c = none := by
      rw [htakes.head_eq h hother]
      rintro c ⟨⟩
      exact hhigh
    exact readLiteral_noDigit hhead reading
  case case10 reading high hhigh ih =>
    obtain ⟨taken, rest, htakes⟩ := ih h
    refine ⟨_, rest, htakes.prepend ['\\', 'x'] rfl fun other hother => ?_⟩
    have hhead : ∀ c ∈ (taken ++ other).head?, hexDigit? c = none := by
      rw [htakes.head_eq h hother]
      rintro c ⟨⟩
      simpa [isHexDigit] using hhigh
    exact readLiteral_noDigit hhead reading
  case case11 reading escape rest hline hlong hshort meaning hmeaning ih =>
    have hhex : escape ≠ 'x' := by
      rintro rfl
      cases hmeaning
    obtain ⟨taken, rest, htakes⟩ := ih h
    refine ⟨_, rest, htakes.prepend ['\\', escape] rfl fun other _ => ?_⟩
    simp only [List.cons_append, List.nil_append, readLiteral_escape hline hhex, hmeaning]
  case case12 reading escape rest hline hlong hshort hmeaning ih =>
    have hhex : escape ≠ 'x' := by
      rintro rfl
      match rest, hlong, hshort with
      | [], _, _ => exact h rfl
      | [high], _, hshort => exact hshort high rfl rfl
      | high :: low :: rest, hlong, _ => exact hlong high low rest rfl rfl
    obtain ⟨taken, rest, htakes⟩ := ih h
    refine ⟨_, rest, htakes.prepend ['\\', escape] rfl fun other _ => ?_⟩
    simp only [List.cons_append, List.nil_append, readLiteral_escape hline hhex, hmeaning]
  case case13 reading c rest hquote hline hlone hcut hlong hshort hescape ih =>
    have hbackslash : c ≠ '\\' := by
      rintro rfl
      match rest, hlone, hescape with
      | [], hlone, _ => exact hlone rfl rfl
      | escape :: rest, _, hescape => exact hescape escape rest rfl rfl
    obtain ⟨taken, rest, htakes⟩ := ih h
    refine ⟨_, rest, htakes.prepend [c] rfl fun other _ => ?_⟩
    exact readLiteral_plain hquote hline hbackslash reading _

end Equational.Token
