import Equational.Proofs.Lexed.Pieces
import Equational.Proofs.Parse.Splitting

/-!
# Faces

The face of a token is what the token says, apart from where it stands.  On the face of a token that
has been read from a text the value goes with the kind, so that the kind can be told from the value:
keywords and punctuation are spelled as they always are, and an operator symbol spells neither.  The
parts of an operator symbol that is split have such faces again.
-/

namespace Equational

open Equational.Token

structure Face where
  kind : TokenKind
  value : String
  moduleName : Option String := none
  deriving DecidableEq, Repr

namespace Face

def mark (mark : Punctuation) : Face := ⟨.mark mark, mark.spelling, none⟩

def word (word : Keyword) : Face := ⟨.word word, word.spelling, none⟩

/-- The value is such that it tells the kind. -/
def IsProper (face : Face) : Prop :=
  match face.kind with
  | .mark mark => face = Face.mark mark
  | .word word => face = Face.word word
  | .number | .string => face.moduleName = none
  | .operatorSymbol =>
    (∀ c ∈ face.value.toList, isOperatorChar c) ∧
      (face.moduleName = none → TokenKind.ofOperatorText face.value = .operatorSymbol)
  | _ => True

theorem IsProper.of_identifierKind (name : List Char) (value : String) (home : Option String) :
    IsProper ⟨identifierKind name, value, home⟩ := by
  rcases identifierKind_cases name with hkind | hkind <;> rw [hkind] <;> trivial

theorem IsProper.of_operatorText {value : List Char} (h : ∀ c ∈ value, isOperatorChar c) :
    IsProper ⟨.ofOperatorText (String.ofList value), String.ofList value, none⟩ := by
  unfold TokenKind.ofOperatorText
  split
  · rename_i mark hmark
    have hspelling := List.find?_some hmark
    simp only [beq_iff_eq] at hspelling
    simp only [IsProper, Face.mark, hspelling]
  · rename_i hnone
    refine ⟨by simpa using h, fun _ => ?_⟩
    simp only [TokenKind.ofOperatorText, hnone]

end Face

/-! ## Tokens of a text -/

namespace Token

def face (token : Token) : Face := ⟨token.kind, token.value, token.moduleName⟩

def Meaning.IsProper : Meaning → Prop
  | .token kind value home => Face.IsProper ⟨kind, String.ofList value, home.map String.ofList⟩
  | _ => True

theorem Lexeme.FoundIn.isProper {text : List Char} {lexeme : Lexeme} (h : lexeme.FoundIn text) :
    lexeme.meaning.IsProper := by
  cases h with
  | qualifiedName | identifier => exact .of_identifierKind _ _ _
  | qualifiedOperator _ _ hcut =>
    exact ⟨by simpa using fun c hmem => isOperatorChar_of_cut (hcut ▸ hmem), nofun⟩
  | keyword _ _ hkeyword =>
    have hspelling := List.find?_some hkeyword
    simp only [beq_iff_eq] at hspelling
    simp [Meaning.IsProper, Face.IsProper, Face.word, hspelling]
  | singleMark _ hspelling => simp [Meaning.IsProper, Face.IsProper, Face.mark, hspelling]
  | operator hcut => exact .of_operatorText fun c hmem => isOperatorChar_of_cut (hcut ▸ hmem)
  | number | string | atSign => rfl
  | _ => trivial

private theorem isProper_first (text : List Char) : (Lexeme.first text).meaning.IsProper :=
  (Lexeme.first_foundIn text).isProper

end Token

private theorem Piece.isProper_of_slot {piece : Piece} (h : piece.lexeme.meaning.IsProper)
    {slot : Slot} (hslot : piece.slot? = some slot) : slot.face.IsProper := by
  rcases slot_cases hslot with ⟨kind, value, home, hmeaning, rfl⟩ | ⟨cause, -, rfl⟩
  · rw [hmeaning] at h
    exact h
  · trivial

theorem Lexed.isProper_of_ofSource {source : String} {lexed : Lexed}
    (h : ofSource source = .ok lexed) : ∀ token ∈ lexed.tokens, token.face.IsProper := by
  obtain ⟨pieces, hcut, rfl⟩ := exists_pieces h
  intro token hmem
  obtain ⟨slot, hslot, rfl⟩ := List.mem_map.mp hmem
  rcases List.mem_append.mp hslot with hslot | hend
  · obtain ⟨piece, hpiece, hslot⟩ := List.mem_filterMap.mp hslot
    exact Piece.isProper_of_slot (hcut.forall_meaning isProper_first trivial piece hpiece) hslot
  · obtain rfl := List.mem_singleton.mp hend
    trivial

/-! ## Parts of an operator symbol -/

theorem isOperatorChar_of_cut_face {token : Token} {bytes : Nat} {head tail : List Char}
    (h : token.face.IsProper) (hkind : token.kind = .operatorSymbol)
    (hcut : Cursor.cutText? bytes token.value.toList = some (head, tail)) :
    (∀ c ∈ head, isOperatorChar c) ∧ ∀ c ∈ tail, isOperatorChar c := by
  have hchars : ∀ c ∈ token.value.toList, isOperatorChar c := by
    simp only [Face.IsProper, Token.face, hkind] at h
    exact h.1
  rw [← append_of_cutText hcut] at hchars
  exact List.forall_mem_append.mp hchars

theorem isProper_parts {token : Token} {bytes : Nat} {head tail : List Char}
    (h : token.face.IsProper) (hkind : token.kind = .operatorSymbol)
    (hcut : Cursor.cutText? bytes token.value.toList = some (head, tail)) :
    (Cursor.frontToken token bytes head).face.IsProper ∧
      (Cursor.backToken token bytes tail).face.IsProper := by
  obtain ⟨hhead, htail⟩ := isOperatorChar_of_cut_face h hkind hcut
  exact ⟨.of_operatorText hhead, .of_operatorText htail⟩

end Equational
