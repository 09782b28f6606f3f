import Equational.Proofs.Run.Chain
import Equational.Proofs.Script.Lossless

/-!
# Parameters as they were

The parameters of a lambda are atoms up to a dot, which may be glued to the operator behind it.
None of them is a lambda, since its body would take the dot.  So they end with the token in front of
the dot, no token is split between them, and in front of another dot the same tokens are the same
parameters again.
-/

namespace Equational

open Cursor Grammar Equational.Token

/-! ## Tokens that are no parts -/

def TokenKind.isWhole : TokenKind → Bool
  | variableName | functionName | number | string | mark .backslash => true
  | mark .closeParen | mark .closeBracket | mark .closeCurly => true
  | _ => false

theorem TokenKind.not_isWhole {text : List Char} (h : ∀ c ∈ text, isOperatorChar c) :
    (ofOperatorText (String.ofList text)).isWhole = false := by
  unfold ofOperatorText
  split
  · rename_i mark hmark
    have hspelling := List.find?_some hmark
    simp only [beq_iff_eq] at hspelling
    have htext : text = mark.spelling.toList := by rw [hspelling, String.toList_ofList]
    subst htext
    -- No bracket and no backslash is an operator character.
    cases mark <;> first | rfl | exact absurd (h _ List.mem_cons_self) (by decide)
  · rfl

namespace Cursor

/-- The tokens ahead are the last ones of these, but for parts of an operator in front of them. -/
structure ComesFrom (source : List Token) (cursor : Cursor) : Prop where
  isProper : cursor.IsProper
  suffix : ∃ parts front rest, cursor.ahead = parts ++ rest ∧ source = front ++ rest ∧
    ∀ part ∈ parts, part.kind.isWhole = false

variable {source : List Token} {cursor after : Cursor} {token : Token}

theorem IsProper.comesFrom (h : cursor.IsProper) {front : List Token}
    (hsource : source = front ++ cursor.ahead) : cursor.ComesFrom source :=
  ⟨h, [], front, cursor.ahead, rfl, hsource, by simp⟩

namespace ComesFrom

theorem takes (h : cursor.ComesFrom source) (htakes : cursor.Takes token after) :
    after.ComesFrom source := by
  obtain ⟨hproper, parts, front, rest, hahead, hsource, hparts⟩ := h
  refine ⟨(htakes.isProper hproper).2, ?_⟩
  cases htakes with
  | intro passed behind hkind =>
    cases parts with
    | nil =>
      obtain rfl : token :: behind = rest := hahead
      exact ⟨[], front ++ [token], behind, rfl, by simp [hsource], by simp⟩
    | cons part parts =>
      obtain ⟨-, hbehind⟩ := List.cons.inj hahead
      exact ⟨parts, front, rest, hbehind, hsource, (List.forall_mem_cons.mp hparts).2⟩

theorem split (h : cursor.ComesFrom source) (hdot : beginsWithDot cursor.current) :
    (cursor.split 1).ComesFrom source := by
  obtain ⟨hproper, parts, front, rest, hahead, hsource, hparts⟩ := h
  have hkind := (kind_of_beginsWithDot hdot).1
  refine ⟨hproper.split hkind 1, ?_⟩
  rcases cursor.split_cases 1 with
    hsplit | ⟨passed, token, behind, errors, head, tail, rfl, hcut, hsplit⟩ <;> rw [hsplit]
  · exact ⟨parts, front, rest, hahead, hsource, hparts⟩
  · obtain ⟨hhead, htail⟩ :=
      isOperatorChar_of_cut_face (hproper token List.mem_cons_self) hkind hcut
    have hcuts : ∀ part ∈ [frontToken token 1 head, backToken token 1 tail],
        part.kind.isWhole = false :=
      List.forall_mem_cons.mpr ⟨TokenKind.not_isWhole hhead,
        List.forall_mem_singleton.mpr (TokenKind.not_isWhole htail)⟩
    cases parts with
    | nil =>
      obtain rfl : token :: behind = rest := hahead
      exact ⟨_, front ++ [token], behind, rfl, by simp [hsource], hcuts⟩
    | cons part parts =>
      obtain ⟨rfl, rfl⟩ := List.cons.inj hahead
      refine ⟨[_, _] ++ parts, front, rest, rfl, hsource, fun part hpart => ?_⟩
      exact (List.mem_append.mp hpart).elim (hcuts part) ((List.forall_mem_cons.mp hparts).2 part)

private theorem passage {taken : List Token} (hpassage : cursor.Passage taken after)
    (h : cursor.ComesFrom source) : after.ComesFrom source := by
  induction hpassage with
  | refl => exact h
  | take htakes _ ih => exact ih (h.takes htakes)
  | split hdot _ ih => exact ih (h.split hdot)

theorem writes {glyphs : List Glyph} (h : cursor.ComesFrom source)
    (hwrites : cursor.Writes glyphs after) : after.ComesFrom source := by
  obtain ⟨taken, hpassage, -⟩ := hwrites
  exact h.passage hpassage

theorem exists_front (h : cursor.ComesFrom source) (htakes : cursor.Takes token after)
    (hkind : token.kind.isWhole) : ∃ front, source = front ++ token :: after.ahead := by
  obtain ⟨-, parts, front, rest, hahead, hsource, hparts⟩ := h
  cases htakes with
  | intro passed behind =>
    cases parts with
    | nil =>
      obtain rfl : token :: behind = rest := hahead
      exact ⟨front, hsource⟩
    | cons part parts =>
      obtain ⟨rfl, -⟩ := List.cons.inj hahead
      rw [hparts _ List.mem_cons_self] at hkind
      cases hkind

theorem exists_front_behind (h : cursor.ComesFrom source) (htakes : cursor.Takes token after)
    (hkind : token.kind.isWhole) : ∃ front, source = front ++ after.ahead := by
  obtain ⟨front, hsource⟩ := h.exists_front htakes hkind
  exact ⟨front ++ [token], by simp [hsource]⟩

end ComesFrom

end Cursor

namespace Grammar

/-! ## Parameters -/

/-- Atoms one behind another up to a dot, none of them a lambda. -/
inductive Parameters (Inner : RunContext → Cursor → Run → Cursor → Prop) :
    Bool → Cursor → List Atom → Cursor → Prop where
  | nil {started : Bool} {cursor : Cursor}
    (hdot : cursor.current.kind = .mark .dot ∨ beginsWithDot cursor.current) :
    Parameters Inner started cursor [] cursor
  | cons {started : Bool} {cursor middle after : Cursor} {atom : Atom} {more : List Atom}
    (hkind : cursor.current.kind ≠ .mark .backslash)
    (hatom : Answer Inner { stopAtDot := true } started cursor (some [.atom atom]) middle)
    (hrest : Parameters Inner true middle more after) :
    Parameters Inner started cursor (atom :: more) after

variable {depth depth' : Nat} {started : Bool} {cursor cursor' middle after stop : Cursor}
  {atom : Atom} {atoms : List Atom}

theorem Parameters.weight_le (h : Parameters (Collects depth) started cursor atoms stop) :
    stop.weight ≤ cursor.weight := by
  induction h with
  | nil => exact Nat.le_refl _
  | cons _ hatom _ ih => exact Nat.le_trans ih (Nat.le_of_lt (next_of_answer _ _ _ hatom).weight_lt)

theorem Parameters.atDepth (hended : cursor.IsEnded) (hweight : cursor.weight ≤ depth + 1)
    (hweight' : cursor.weight ≤ depth' + 1)
    (h : Parameters (Collects depth) started cursor atoms stop) :
    Parameters (Collects depth') started cursor atoms stop := by
  induction h with
  | nil hdot => exact .nil hdot
  | cons hkind hatom _ ih =>
    have hnext := next_of_answer _ _ _ hatom
    have hlt := hnext.weight_lt
    have hmiddle := (hnext.writes Collects.writes).isEnded hended
    exact .cons hkind (hatom.atDepth hended hweight hweight')
      (ih hmiddle (by omega) (by omega))

/-! ## Where parameters stand -/

theorem Next.exists_front {context : RunContext}
    (h : Next (Collects depth) context started cursor [.atom atom] after)
    (hkind : cursor.current.kind ≠ .mark .backslash) {source : List Token}
    (hfrom : cursor.ComesFrom source) : ∃ front, source = front ++ after.ahead := by
  have hidentifier {kind : TokenKind} (h : kind.isIdentifier) : kind.isWhole := by
    cases kind <;> first | rfl | cases h
  cases h with
  | named hname h =>
    cases h with
    | typed htoken _ hcolon _ htype hidentifierKind =>
      exact ((hfrom.takes htoken).takes hcolon).exists_front_behind htype
        (hidentifier hidentifierKind)
    | plain htoken =>
      rw [htoken.current_eq] at hname
      exact hfrom.exists_front_behind htoken (hidentifier hname)
  | declared htoken _ hname hidentifierKind =>
    exact (hfrom.takes htoken).exists_front_behind hname (hidentifier hidentifierKind)
  | number htoken hnumber => exact hfrom.exists_front_behind htoken (by rw [hnumber]; rfl)
  | string htoken hstring => exact hfrom.exists_front_behind htoken (by rw [hstring]; rfl)
  | container _ h =>
    have hclosing (bracket : Bracket) : (TokenKind.mark bracket.closing).isWhole := by
      cases bracket <;> rfl
    cases h with
    | empty hopening hclose hmark =>
      exact (hfrom.takes hopening).exists_front_behind hclose (by rw [hmark]; exact hclosing _)
    | filled hopening _ hfirst hbody hclose hmark =>
      have hfourth := (hfrom.takes hopening).writes (hbody.writes Collects.writes hfirst.writes)
      exact hfourth.exists_front_behind hclose (by rw [hmark]; exact hclosing _)
  | lambda hlambda => exact absurd hlambda hkind
  | conditional _ _ h => cases h

theorem Parameters.exists_front (h : Parameters (Collects depth) started cursor atoms stop)
    (hproper : cursor.IsProper) {source : List Token}
    (hsource : ∃ front, source = front ++ cursor.ahead) :
    ∃ front, source = front ++ stop.ahead := by
  induction h with
  | nil => exact hsource
  | cons hkind hatom _ ih =>
    have hnext := next_of_answer _ _ _ hatom
    obtain ⟨front, hfront⟩ := hsource
    have hfrom := hproper.comesFrom hfront
    have hmiddle := hfrom.writes (hnext.writes Collects.writes)
    exact ih hmiddle.isProper (hnext.exists_front hkind hfrom)

/-! ## Parameters that are collected -/

private theorem Lambda.not_begins {context : RunContext}
    (h : Lambda (Collects depth) context cursor atom after)
    (hassignment : context.stopAtAssignment = false) (hguard : context.stopAtGuard = false) :
    beginsItem after.current.kind = false := by
  cases h with
  | intro _ _ _ _ hbody =>
    obtain ⟨last, hstop⟩ := hbody.exists_stop
    cases hstop with
    | guard _ hstop => simp [hguard] at hstop
    | assignment _ hstop => simp [hassignment] at hstop
    | dot _ hstop => cases hstop
    | glued _ hstop => cases hstop
    | other hkind => exact hkind

theorem Items.begins {Inner : RunContext → Cursor → Run → Cursor → Prop} {context : RunContext}
    {items : List RunItem} (h : Items Inner context started cursor items after)
    (hafter : beginsItem after.current.kind = true) : beginsItem cursor.current.kind = true := by
  cases h with
  | stop h =>
    cases stop_of_answer _ _ _ h with
    | glued hdot => rw [(kind_of_beginsWithDot hdot).1]; rfl
    | _ => exact hafter
  | next h => exact beginsItem_of_next _ _ _ (next_of_answer _ _ _ h)

/-- What is resolved as parameters in front of a dot are parameters. -/
theorem Items.exists_parameters {table : OperatorTable} {items : List RunItem}
    (h : Items (Collects depth) { stopAtDot := true } started cursor items after)
    (hdot : after.current.kind = .mark .dot) {parameters : List Expr}
    (hresolve : resolveParameters table items = .ok parameters) :
    ∃ atoms stop, items = atoms.map .atom ∧
      Parameters (Collects depth) started cursor atoms stop := by
  have hbegins : beginsItem after.current.kind = true := by
    rw [hdot]
    rfl
  induction h generalizing parameters with
  | @stop started cursor after h =>
    refine ⟨[], cursor, rfl, .nil ?_⟩
    cases stop_of_answer _ _ _ h with
    | guard _ hstop => cases hstop
    | assignment _ hstop => cases hstop
    | dot hkind => exact .inl hkind
    | glued hglued => exact .inr hglued
    | other hkind => exact absurd hbegins (by simp [hkind])
  | @next started cursor middle after items more h hrest ih =>
    have hnext := next_of_answer _ _ _ h
    obtain ⟨atom, rfl⟩ : ∃ atom, items = [.atom atom] := by
      cases hnext with
      | conditional _ _ hconditional => cases hconditional <;> cases hresolve
      | operator => cases hresolve
      | _ => exact ⟨_, rfl⟩
    obtain ⟨parameter, -, hothers⟩ := bind_eq_ok_iff.mp hresolve
    obtain ⟨others, hothers, -⟩ := bind_eq_ok_iff.mp hothers
    obtain ⟨atoms, stop, rfl, hatoms⟩ := ih hdot hothers hbegins
    refine ⟨atom :: atoms, stop, rfl, .cons (fun hkind => ?_) h hatoms⟩
    obtain ⟨lambda, hlambda, -⟩ : ∃ lambda, Lambda (Collects depth) _ cursor lambda middle ∧
        some [RunItem.atom atom] = some [.atom lambda] := by
      unfold Answer at h
      rw [hkind] at h
      exact h
    have hend := hlambda.not_begins rfl rfl
    rw [hrest.begins hbegins] at hend
    cases hend

/-! ## Parameters in front of another dot -/

section Dot

variable {dot : Token} (hdot : dot.kind = .mark .dot) {more : List Token}

include hdot

private theorem Parameters.ne_colon (h : Parameters (Collects depth) started cursor atoms stop)
    (hfacing : Facing stop.ahead (dot :: more) cursor cursor') :
    cursor'.current.kind ≠ .mark .colon := by
  cases h with
  | nil =>
    rw [current_of_ahead (hfacing.ahead_of_end rfl), hdot]
    nofun
  | cons _ hatom hrest =>
    have hnext := next_of_answer _ _ _ hatom
    have hbegins := beginsItem_of_next _ _ _ hnext
    have hweight : totalWeight stop.ahead < cursor.weight :=
      Nat.lt_of_le_of_lt hrest.weight_le hnext.weight_lt
    rw [← hfacing.kind_eq hweight] at hbegins
    intro hcolon
    rw [hcolon] at hbegins
    cases hbegins

theorem Parameters.carried (h : Parameters (Collects depth) started cursor atoms stop)
    (hfacing : Facing stop.ahead (dot :: more) cursor cursor') :
    Carries stop.ahead (dot :: more) (Items (Collects depth) { stopAtDot := true } started)
      (atoms.map RunItem.atom) stop cursor' := by
  induction h generalizing cursor' with
  | nil =>
    have hcurrent := current_of_ahead (hfacing.ahead_of_end rfl)
    exact ⟨[], cursor', .stop (answer_of_stop _ _ _ (.dot (hcurrent ▸ hdot) rfl)), .refl _, hfacing⟩
  | @cons started cursor middle stop atom atoms hkind hatom hrest ih =>
    have hnext := next_of_answer _ _ _ hatom
    have hweight : totalWeight stop.ahead ≤ middle.weight := hrest.weight_le
    have hcarried : Carries stop.ahead (dot :: more)
        (Next (Collects depth) { stopAtDot := true } started) [.atom atom] middle cursor' := by
      refine hnext.carried (transfers _ _ depth) hfacing hweight ?_ ?_ ?_ ?_
      · intro other _ hnamed
        exact hnamed.carried hfacing hweight fun hbehind _ hcolon =>
          hrest.ne_colon hdot hbehind hcolon.2.1
      · exact fun _ hlambda => absurd hlambda hkind
      · intro hconditional
        cases hconditional
      · rintro op ⟨⟩
    obtain ⟨items', middle', hnext', hlike, hmiddle⟩ := hcarried
    obtain ⟨more', stop', hrest', hlikes, hstop⟩ := ih hmiddle
    have hhalts := halts_of_answer _ _ _ hatom
    have hlt := Nat.lt_of_le_of_lt hweight hnext.weight_lt
    rw [← halts_of_face (hfacing.current hlt)] at hhalts
    exact ⟨_, stop', .next (answer_of_next _ _ _ hnext' hhalts) hrest', hlike.append hlikes, hstop⟩

end Dot

/-! ## Parameters in a source -/

/-- The tokens between the backslash and the dot of the lambda that starts there, with the
parameters that they are. -/
inductive ParametersAt (table : OperatorTable) (source : List Token) :
    Nat → List Token → List Expr → Prop where
  | intro {before front : List Token} {backslash : Token} {cursor stop : Cursor}
    {atoms : List Atom} {parameters : List Expr}
    (hsource : source = before ++ backslash :: cursor.ahead)
    (hkind : backslash.kind = .mark .backslash) (hended : cursor.IsEnded)
    (hatoms : Parameters (Collects cursor.weight) false cursor atoms stop) (hne : atoms ≠ [])
    (hfront : cursor.ahead = front ++ stop.ahead)
    (hresolve : resolveParameters table (atoms.map .atom) = .ok parameters) :
    ParametersAt table source backslash.span.start front parameters

variable {table : OperatorTable} {source : List Token}

theorem Lambda.exists_parametersAt {context : RunContext} {items : List RunItem} {body : Run}
    {span : Span} (h : Lambda (Collects depth) context cursor (.lambda items body span) after)
    (hkind : cursor.current.kind = .mark .backslash) (hended : cursor.IsEnded)
    (hweight : cursor.weight ≤ depth + 1) (hfrom : cursor.ComesFrom source) (hne : items ≠ [])
    {parameters : List Expr} (hresolve : resolveParameters table items = .ok parameters) :
    ∃ front, ParametersAt table source span.start front parameters := by
  cases h with
  | @intro first second _ _ backslash _ run _ hbackslash hparameters hdot hdotKind =>
    have hfirstWeight := hbackslash.weight_lt
    have hfirstEnded := hbackslash.isEnded hended
    have hbackslashKind := hbackslash.kind_eq hkind
    obtain ⟨before, hsource⟩ := hfrom.exists_front hbackslash (by rw [hbackslashKind]; rfl)
    have hfirstDepth : first.weight ≤ depth := by omega
    obtain ⟨items, hitems, rfl⟩ :=
      hparameters.atDepth hfirstEnded hfirstDepth (Nat.le_succ first.weight)
    rw [← hdot.current_eq] at hdotKind
    obtain ⟨atoms, stop, rfl, hatoms⟩ := hitems.exists_parameters hdotKind hresolve
    obtain ⟨front, hfront⟩ := hatoms.exists_front (hfrom.takes hbackslash).isProper ⟨[], rfl⟩
    refine ⟨front, .intro hsource hbackslashKind hfirstEnded hatoms ?_ hfront hresolve⟩
    rintro rfl
    exact hne rfl

theorem ParametersAt.collects {start : Nat} {front : List Token} {parameters : List Expr}
    (h : ParametersAt table source start front parameters) {faces : List Face}
    {behind : List Token} (hended : cursor.IsEnded) (hweight : cursor.weight ≤ depth)
    (hfaces : cursor.Faces (front.map Token.face ++ .mark .dot :: faces) behind) :
    ∃ run parameters' after, Collects depth { stopAtDot := true } cursor run after ∧
      run.items ≠ [] ∧ resolveParameters table run.items = .ok parameters' ∧
      Alike parameters parameters' ∧ after.Faces (.mark .dot :: faces) behind := by
  cases h with
  | @intro before _ backslash origin stop atoms _ hsource hkind horigin hatoms hne hfront
      hresolve =>
    obtain ⟨tokens, hahead, htokens⟩ := hfaces
    obtain ⟨front', rest, rfl, hfront', hrest⟩ := List.map_eq_append_iff.mp htokens
    obtain ⟨dot, more, rfl, hdot, hmore⟩ := List.map_eq_cons_iff.mp hrest
    have hfacing : Facing stop.ahead (dot :: (more ++ behind)) origin cursor := by
      refine .of_map_eq hfront ?_ hfront'
      rw [hahead, List.append_assoc]
      rfl
    have hpos := hended.weight_pos
    obtain ⟨depth, rfl⟩ : ∃ less, depth = less + 1 := Nat.exists_eq_add_one.mpr (by omega)
    -- The nesting has to suffice for both places.
    have hdeep := Nat.le_max_left origin.weight depth
    have hdepth := Nat.le_max_right origin.weight depth
    have hraised : Parameters (Collects (max origin.weight depth)) false origin atoms stop :=
      hatoms.atDepth horigin (Nat.le_succ _) (by omega)
    obtain ⟨items, after, hitems, hlike, hafter⟩ :=
      hraised.carried (congrArg Face.kind hdot) hfacing
    have hlowered := hitems.atDepth hended (by omega) hweight
    obtain ⟨parameters', hparameters', hlikes⟩ := hlike.resolveParameters hresolve
    refine ⟨_, parameters', after, ⟨items, hlowered, rfl⟩, ?_, hparameters', hlikes, dot :: more,
      hafter.ahead_of_end rfl, hrest⟩
    rintro rfl
    exact hne (List.map_eq_nil_iff.mp (List.map_eq_nil_iff.mp hlike))

end Grammar

end Equational
