import Equational.Proofs.Bytes
import Equational.Proofs.Parse.Shared

/-!
# Splitting a shared token

An operator that begins with a dot is split at the end of the parameters of a lambda.  Its parts
weigh as much as the whole, owe what it owed, and are relocated as it is.
-/

namespace Equational

open Cursor Token

/-! ## Cutting a text -/

theorem byteLength_of_cutText {bytes : Nat} {text head tail : List Char}
    (h : cutText? bytes text = some (head, tail)) :
    byteLength head = bytes ∧ head ≠ [] ∧ tail ≠ [] := (parts_of_cutText h).2

/-! ## Parts of an operator -/

theorem isPlain_ofOperatorText {text : List Char} (h : ∀ c ∈ text, isOperatorChar c) :
    (TokenKind.ofOperatorText (String.ofList text)).isPlain := by
  unfold TokenKind.ofOperatorText
  split
  · rename_i mark hmark
    have hspelling := List.find?_some hmark
    simp only [beq_iff_eq] at hspelling
    have htext : text = mark.spelling.toList := by rw [hspelling, String.toList_ofList]
    subst htext
    -- No bracket and no semicolon is an operator character.
    cases mark <;> first | rfl | exact absurd (h _ List.mem_cons_self) (by decide)
  · rfl

section Parts

variable {place : Relocation} {token : Token} {bytes : Nat} {head tail : List Char}

theorem tokenWeight_operatorPart {text : List Char} (h : text ≠ []) (span : Span) :
    tokenWeight (operatorPart text span) = byteLength text := by
  have hpos := byteLength_pos h
  simp only [tokenWeight, operatorPart, utf8ByteSize_ofList]
  omega

section Cut

variable (hcut : cutText? bytes token.value.toList = some (head, tail))

include hcut

theorem utf8ByteSize_of_cut : token.value.utf8ByteSize = bytes + byteLength tail := by
  rw [utf8ByteSize_eq, ← append_of_cutText hcut, byteLength_append, (byteLength_of_cutText hcut).1]

theorem tokenWeight_parts :
    tokenWeight (frontToken token bytes head) + tokenWeight (backToken token bytes tail) =
      tokenWeight token := by
  obtain ⟨hbytes, hhead, htail⟩ := byteLength_of_cutText hcut
  have hvalue := utf8ByteSize_of_cut hcut
  have hpos := byteLength_pos hhead
  rw [frontToken, backToken, tokenWeight_operatorPart hhead, tokenWeight_operatorPart htail,
    tokenWeight, hvalue, ← hbytes]
  omega

variable (htracks : place.Tracks token) (hkind : token.kind = .operatorSymbol)

include htracks hkind

theorem position_of_cut :
    place.start (recorded (token.span.start + bytes)) =
        recorded (place.start token.span.start + bytes) ∧
      place.stop (recorded (token.span.start + bytes)) =
        recorded (place.start token.span.start + bytes) := by
  have htail := byteLength_pos (byteLength_of_cutText hcut).2.2
  refine htracks.parts hkind bytes ?_
  rw [utf8ByteSize_of_cut hcut]
  omega

theorem relocate_frontToken :
    relocate place (frontToken token bytes head) =
      frontToken (relocate place token) bytes head := by
  have hposition := (position_of_cut hcut htracks hkind).2
  exact congrArg (fun stop => operatorPart head ⟨place.start token.span.start, stop⟩) hposition

theorem relocate_backToken :
    relocate place (backToken token bytes tail) = backToken (relocate place token) bytes tail := by
  have hposition := (position_of_cut hcut htracks hkind).1
  exact congrArg (fun start => operatorPart tail ⟨start, place.stop token.span.stop⟩) hposition

theorem isOperatorChar_of_parts :
    (∀ c ∈ head, isOperatorChar c) ∧ ∀ c ∈ tail, isOperatorChar c := by
  have hvalue := htracks.symbol hkind
  rw [← append_of_cutText hcut] at hvalue
  exact List.forall_mem_append.mp hvalue

theorem isPlain_frontToken : (frontToken token bytes head).kind.isPlain :=
  isPlain_ofOperatorText (isOperatorChar_of_parts hcut htracks hkind).1

theorem isPlain_backToken : (backToken token bytes tail).kind.isPlain :=
  isPlain_ofOperatorText (isOperatorChar_of_parts hcut htracks hkind).2

theorem tracks_frontToken : place.Tracks (frontToken token bytes head) where
  aligned := htracks.aligned
  parts _ n hn := by
    refine htracks.parts hkind n ?_
    simp only [frontToken, operatorPart, utf8ByteSize_ofList,
      (byteLength_of_cutText hcut).1] at hn
    rw [utf8ByteSize_of_cut hcut]
    omega
  symbol _ := by
    simpa [frontToken, operatorPart] using (isOperatorChar_of_parts hcut htracks hkind).1

theorem tracks_backToken : place.Tracks (backToken token bytes tail) where
  aligned := by
    obtain ⟨hstart, hstop⟩ := position_of_cut hcut htracks hkind
    exact hstop.trans hstart.symm
  parts _ n hn := by
    simp only [backToken, operatorPart, utf8ByteSize_ofList] at hn ⊢
    rw [(position_of_cut hcut htracks hkind).1, recorded_recorded_add, recorded_recorded_add,
      Nat.add_assoc, Nat.add_assoc]
    refine htracks.parts hkind (bytes + n) ?_
    rw [utf8ByteSize_of_cut hcut]
    omega
  symbol _ := by
    simpa [backToken, operatorPart] using (isOperatorChar_of_parts hcut htracks hkind).2

end Cut

private theorem isOwing_parts {slot : Slot} (howing : slot.IsOwing)
    (hkind : slot.kind = .operatorSymbol)
    (hfront : (frontToken slot.toToken bytes head).kind.isPlain)
    (hback : (backToken slot.toToken bytes tail).kind.isPlain) :
    (frontPart slot bytes head).IsOwing ∧ (backPart slot bytes tail).IsOwing := by
  refine ⟨⟨fun hmalformed => ?_, fun _ => howing.formed (by rw [hkind]; nofun)⟩,
    fun hmalformed => ?_, fun _ => rfl⟩
  · exact absurd hmalformed (Passes.plain [] hfront).not_malformed
  · exact absurd hmalformed (Passes.plain [] hback).not_malformed

end Parts

/-! ## Splitting -/

namespace Coupling

variable {κ : Coupling} {stage : Stage} {passed rest : List Slot} {token : Slot}
  {reported : List Diagnostic} {bytes : Nat} {head tail : List Char}

theorem nesting_of_isPlain {opened : List Bracket} {kind : TokenKind} (h : kind.isPlain)
    (kinds : List TokenKind) : nesting? opened (kind :: kinds) = nesting? opened kinds := by
  simp [nesting?, (Passes.plain opened h).nesting]

variable (hkind : token.kind = .operatorSymbol)
  (hcut : cutText? bytes token.value.toList = some (head, tail))

include hkind hcut

theorem Keeps.split (h : κ.Keeps ⟨passed, token :: rest, reported⟩) (hrest : rest ≠ []) :
    κ.Keeps
      ⟨passed, frontPart token bytes head :: backPart token bytes tail :: rest, reported⟩ := by
  have htracks := h.tracked token List.mem_cons_self
  have hfront := isPlain_frontToken hcut htracks hkind
  have hback := isPlain_backToken hcut htracks hkind
  obtain ⟨hfrontOwing, hbackOwing⟩ :=
    isOwing_parts (h.owing token List.mem_cons_self) hkind hfront hback
  have hrestShareable := h.toShareable.tail
  refine ⟨⟨?_, ?_, ?_, ?_⟩, ?_, h.settled, h.reported, ?_⟩
  · obtain ⟨next, others, rfl⟩ := List.exists_cons_of_ne_nil hrest
    exact h.terminated
  · rw [List.dropLast_cons_of_ne_nil (List.cons_ne_nil _ _), List.dropLast_cons_of_ne_nil hrest]
    refine List.forall_mem_cons.mpr ⟨(Passes.plain [] hfront).not_end, ?_⟩
    exact List.forall_mem_cons.mpr ⟨(Passes.plain [] hback).not_end, hrestShareable.inside⟩
  · refine List.forall_mem_cons.mpr ⟨tracks_frontToken hcut htracks hkind, ?_⟩
    exact List.forall_mem_cons.mpr ⟨tracks_backToken hcut htracks hkind, hrestShareable.tracked⟩
  · refine List.forall_mem_cons.mpr ⟨hfrontOwing, ?_⟩
    exact List.forall_mem_cons.mpr ⟨hbackOwing, hrestShareable.owing⟩
  · have hparts : owedBy (frontPart token bytes head :: backPart token bytes tail :: rest) =
        owedBy (token :: rest) := by
      cases howed : token.owed <;>
        simp [owedBy, frontPart, backPart, howed]
    have howed := h.owed
    rw [owedBy_append] at howed ⊢
    rw [hparts, howed]
  · have hle := h.weight_le_ceiling
    have hweight := tokenWeight_parts hcut
    simp only [tokensOf_cons, totalWeight, frontPart, backPart] at hle ⊢
    omega

theorem Fits.split (h : κ.Fits stage ⟨passed, token :: rest, reported⟩) :
    κ.Fits stage.fresh
      ⟨passed, frontPart token bytes head :: backPart token bytes tail :: rest, reported⟩ := by
  have htracks := h.tracked token List.mem_cons_self
  have hfront := isPlain_frontToken hcut htracks hkind
  have hback := isPlain_backToken hcut htracks hkind
  have hplain : token.kind.isPlain := by rw [hkind]; rfl
  have hrest := h.rest_ne_nil ((Passes.plain [] hplain).ne_terminator κ.extent)
  refine ⟨h.toKeeps.split hkind hcut hrest, List.cons_ne_nil _ _, ?_, fun hextent => ⟨?_, ?_⟩,
    nofun, nofun, h.moved, h.assumes⟩
  · have hle := h.weight_le
    have hweight := tokenWeight_parts hcut
    simp only [tokensOf_cons, totalWeight, frontPart, backPart] at hle ⊢
    exact Nat.le_trans (by omega) hle
  · have hnested := (h.nested hextent).1
    rw [List.map_cons, nesting_of_isPlain hplain] at hnested
    exact (nesting_of_isPlain hfront _).trans ((nesting_of_isPlain hback _).trans hnested)
  · have hlast := (h.nested hextent).2
    rw [List.dropLast_cons_of_ne_nil hrest] at hlast
    rw [List.dropLast_cons_of_ne_nil (List.cons_ne_nil _ _), List.dropLast_cons_of_ne_nil hrest]
    refine List.forall_mem_cons.mpr ⟨(Passes.plain [] hfront).not_semicolon, ?_⟩
    refine List.forall_mem_cons.mpr ⟨(Passes.plain [] hback).not_semicolon, ?_⟩
    exact (List.forall_mem_cons.mp hlast).2

end Coupling

end Equational
