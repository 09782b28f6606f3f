import Equational.Proofs.Node

/-!
# Nodes in place

A node is in order if its span is not empty, its children lie within it and, where it is an
expression, they stand one behind another.  It is in place if it and all nodes below it are in
order.  Nodes are put in place from below, by rows of children that are in place already.
-/

namespace Equational

variable {α β : Type}

/-! ## Rows -/

/-- Things that take the room between two positions, and take as well any greater room. -/
class Spreads (lies : Nat → α → Nat → Prop) : Prop where
  le {low high : Nat} {x : α} : lies low x high → low ≤ high
  widen {low low' high high' : Nat} {x : α} : lies low x high → low' ≤ low → high ≤ high' →
    lies low' x high'

inductive Row (lies : Nat → α → Nat → Prop) : Nat → List α → Nat → Prop where
  | nil {low high : Nat} (h : low ≤ high) : Row lies low [] high
  | cons {low middle high : Nat} {first : α} {rest : List α} (hfirst : lies low first middle)
    (hrest : Row lies middle rest high) : Row lies low (first :: rest) high

namespace Row

variable {lies : Nat → α → Nat → Prop} {low middle high : Nat} {first second : List α}

theorem split (h : Row lies low (first ++ second) high) :
    ∃ middle, Row lies low first middle ∧ Row lies middle second high := by
  induction first generalizing low with
  | nil => exact ⟨low, .nil (Nat.le_refl low), h⟩
  | cons x rest ih =>
    obtain _ | ⟨hfirst, hrest⟩ := h
    obtain ⟨middle, hfront, hback⟩ := ih hrest
    exact ⟨middle, .cons hfirst hfront, hback⟩

theorem singleton {x : α} (h : lies low x high) : Row lies low [x] high :=
  .cons h (.nil (Nat.le_refl high))

variable [Spreads lies]

theorem le (h : Row lies low first high) : low ≤ high := by
  induction h with
  | nil h => exact h
  | cons hfirst _ ih => exact Nat.le_trans (Spreads.le hfirst) ih

theorem widen (h : Row lies low first high) {low' high' : Nat} (hlow : low' ≤ low)
    (hhigh : high ≤ high') : Row lies low' first high' := by
  induction h generalizing low' with
  | nil h => exact .nil (by omega)
  | cons hfirst _ ih =>
    exact .cons (Spreads.widen hfirst hlow (Nat.le_refl _)) (ih (Nat.le_refl _) hhigh)

theorem append (h : Row lies low first middle) (h' : Row lies middle second high) :
    Row lies low (first ++ second) high := by
  induction h with
  | nil h => exact h'.widen h (Nat.le_refl _)
  | cons hfirst _ ih => exact .cons hfirst (ih h')

theorem of_singleton {x : α} (h : Row lies low [x] high) : lies low x high := by
  obtain _ | ⟨hfirst, hrest⟩ := h
  exact Spreads.widen hfirst (Nat.le_refl _) hrest.le

theorem concat {x : α} (h : Row lies low first middle) (hlast : lies middle x high) :
    Row lies low (first ++ [x]) high := h.append (singleton hlast)

theorem of_mem (h : Row lies low first high) {x : α} (hmem : x ∈ first) : lies low x high := by
  obtain ⟨front, back, rfl⟩ := List.append_of_mem hmem
  obtain ⟨middle, hfront, hback⟩ := h.split
  obtain _ | ⟨hfirst, hrest⟩ := hback
  exact Spreads.widen hfirst hfront.le hrest.le

theorem pairwise {apart : α → α → Prop}
    (hapart : ∀ {low middle high : Nat} {x y : α}, lies low x middle → lies middle y high →
      apart x y)
    (h : Row lies low first high) : first.Pairwise apart := by
  induction h with
  | nil => exact .nil
  | cons hfirst hrest ih => exact .cons (fun _ hmem => hapart hfirst (hrest.of_mem hmem)) ih

omit [Spreads lies] in
theorem map {lies' : Nat → β → Nat → Prop} {f : α → β}
    (hf : ∀ {low high x}, lies low x high → lies' low (f x) high) (h : Row lies low first high) :
    Row lies' low (first.map f) high := by
  induction h with
  | nil h => exact .nil h
  | cons hfirst _ ih => exact .cons (hf hfirst) ih

end Row

/-! ## Nodes in order -/

namespace Node

structure IsOrdered (node : Node) : Prop where
  nonempty : node.span.start < node.span.stop
  within : ∀ child ∈ node.children,
    node.span.start ≤ child.span.start ∧ child.span.stop ≤ node.span.stop
  apart : ∀ e, node = .expression e →
    node.children.Pairwise fun first second => first.span.stop ≤ second.span.start

/-- The node and every node below it are in order. -/
def InPlace (node : Node) : Prop := ∀ inner, node.Reaches inner → inner.IsOrdered

theorem inPlace_of_children {node : Node} (h : node.IsOrdered)
    (hchildren : ∀ child ∈ node.children, child.InPlace) : node.InPlace := by
  intro inner hreaches
  rcases hreaches.cases_head with rfl | ⟨child, hchild, hbelow⟩
  · exact h
  · exact hchildren child hchild inner hbelow

theorem InPlace.isOrdered {node : Node} (h : node.InPlace) : node.IsOrdered := h node .refl

theorem InPlace.child {node child : Node} (h : node.InPlace) (hchild : child ∈ node.children) :
    child.InPlace := fun inner hbelow => h inner (.head hchild hbelow)

/-- The node is in place between two positions. -/
structure Lies (low : Nat) (node : Node) (high : Nat) : Prop where
  low_le : low ≤ node.span.start
  inPlace : node.InPlace
  le_high : node.span.stop ≤ high

instance spreads : Spreads Lies where
  le h := by
    have hnonempty := h.inPlace.isOrdered.nonempty
    have hlow := h.low_le
    have hhigh := h.le_high
    omega
  widen h hlow hhigh := ⟨Nat.le_trans hlow h.low_le, h.inPlace, Nat.le_trans h.le_high hhigh⟩

theorem Lies.fromStart {low high : Nat} {node : Node} (h : node.Lies low high) :
    node.Lies node.span.start high := ⟨Nat.le_refl _, h.inPlace, h.le_high⟩

theorem Lies.toStop {low high : Nat} {node : Node} (h : node.Lies low high) :
    node.Lies low node.span.stop := ⟨h.low_le, h.inPlace, Nat.le_refl _⟩

theorem inPlace_of_within {node : Node} (hexpression : ∀ e, node ≠ .expression e)
    (hnonempty : node.span.start < node.span.stop)
    (h : ∀ child ∈ node.children, child.Lies node.span.start node.span.stop) : node.InPlace := by
  refine inPlace_of_children ⟨hnonempty, fun child hchild => ?_, fun e he => ?_⟩
    fun child hchild => ?_
  · exact ⟨(h child hchild).low_le, (h child hchild).le_high⟩
  · exact absurd he (hexpression e)
  · exact (h child hchild).inPlace

end Node

/-! ## Expressions and operators -/

abbrev Expr.Lies (low : Nat) (e : Expr) (high : Nat) : Prop := Node.Lies low (.expression e) high

abbrev OperatorUse.Lies (low : Nat) (op : OperatorUse) (high : Nat) : Prop :=
  Node.Lies low (.operator op) high

instance Expr.spreads : Spreads Expr.Lies := ⟨Node.spreads.le, Node.spreads.widen⟩

instance OperatorUse.spreads : Spreads OperatorUse.Lies := ⟨Node.spreads.le, Node.spreads.widen⟩

theorem OperatorUse.lies {op : OperatorUse} {low high : Nat} (hlow : low ≤ op.span.start)
    (hnonempty : op.span.start < op.span.stop) (hhigh : op.span.stop ≤ high) :
    op.Lies low high :=
  ⟨hlow, Node.inPlace_of_within nofun hnonempty nofun, hhigh⟩

namespace Expr

variable {e : Expr} {low high : Nat}

theorem lies_of_children (hlow : low ≤ e.span.start) (hnonempty : e.span.start < e.span.stop)
    (hhigh : e.span.stop ≤ high) (h : Row Node.Lies e.span.start e.children e.span.stop) :
    e.Lies low high := by
  refine ⟨hlow, Node.inPlace_of_children ⟨hnonempty, fun child hchild => ?_, fun _ _ => ?_⟩
    fun child hchild => (h.of_mem hchild).inPlace, hhigh⟩
  · exact ⟨(h.of_mem hchild).low_le, (h.of_mem hchild).le_high⟩
  · exact h.pairwise fun hfirst hsecond => Nat.le_trans hfirst.le_high hsecond.low_le

theorem lies_of_leaf (hlow : low ≤ e.span.start) (hnonempty : e.span.start < e.span.stop)
    (hhigh : e.span.stop ≤ high) (h : e.children = []) : e.Lies low high := by
  refine lies_of_children hlow hnonempty hhigh ?_
  rw [h]
  exact .nil (Nat.le_of_lt hnonempty)

theorem lies_of_row {start stop : Nat} (hspan : e.span = ⟨start, stop⟩) (hlow : low ≤ start)
    (hhigh : stop ≤ high) {child : Node} (hchild : child ∈ e.children)
    (h : Row Node.Lies start e.children stop) : e.Lies low high := by
  have hfirst := h.of_mem hchild
  have hnonempty := hfirst.inPlace.isOrdered.nonempty
  have hstart := hfirst.low_le
  have hstop := hfirst.le_high
  refine lies_of_children ?_ ?_ ?_ ?_ <;> rw [hspan]
  · exact hlow
  · dsimp only
    omega
  · exact hhigh
  · exact h

end Expr

end Equational
