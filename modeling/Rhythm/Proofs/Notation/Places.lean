import Rhythm.Proofs.Notation.Shape

/-! Expressions apart from their places, and the parts of a body: its chain and the tails around
it. -/
namespace Rhythm.Notation.Expr

mutual

/-- The expression without the places in it. -/
def unplaced : Expr → Expr
  | .literal p => .literal p
  | .generator family args _ => .generator family args ⟨0, 0⟩
  | .bell steps seed _ => .bell steps seed ⟨0, 0⟩
  | .accented accent body => .accented accent.unplaced body.unplaced
  | .quantized body steps clockwise _ => .quantized body.unplaced steps clockwise ⟨0, 0⟩
  | .progressive suffix body => .progressive suffix body.unplaced
  | .combination how left right _ => .combination how left.unplaced right.unplaced ⟨0, 0⟩
  | .chain parts _ => .chain (unplacedAll parts) ⟨0, 0⟩
  | .invert body => .invert body.unplaced
  | .reverse body => .reverse body.unplaced
  | .rotate body offset => .rotate body.unplaced offset
  | .scenes parts => .scenes (unplacedAll parts)

def unplacedAll : List Expr → List Expr
  | [] => []
  | e :: es => e.unplaced :: unplacedAll es

end

/-- The expression without its accent and its tails. -/
def core : Expr → Expr
  | .accented _ body | .quantized body .. | .rotate body _ | .progressive _ body => body.core
  | e => e

/-- The first of the tails, which stands right after the chain. -/
def firstTail? : Expr → Option Tail
  | .accented _ body => body.firstTail?
  | .quantized body steps clockwise _ => some (body.firstTail?.getD (.quantize steps clockwise))
  | .rotate body offset => some (body.firstTail?.getD (.rotate offset))
  | .progressive suffix body => some (body.firstTail?.getD (.evolve suffix))
  | _ => none

/-- The last combo of a chain. -/
def lastCombo : Expr → Expr
  | .chain parts span => parts.getLast?.getD (.chain parts span)
  | e => e

/-- A combination without its right operand. -/
def leftOperand : Expr → Expr
  | .combination _ left _ _ => left
  | e => e

/-- A chain without the right operand of its last combo. -/
def dropOperand : Expr → Expr
  | .chain parts span => .chain (parts.dropLast ++ parts.getLast?.toList.map leftOperand) span
  | e => e.leftOperand

/-- A combination with a plus and a literal after it. -/
def AddsLiteral (e : Expr) : Prop := ∃ left p span, e = .combination .add left (.literal p) span

/-- A chain ends in a plus and a literal, and no progressive offset comes right after it. -/
def Absorbs (e : Expr) : Prop :=
  e.core.lastCombo.AddsLiteral ∧ ∀ n, e.firstTail? ≠ some (.evolve (.offset n))

variable {e : Expr}

theorem unplacedAll_eq_map (es : List Expr) : unplacedAll es = es.map unplaced := by
  induction es with
  | nil => rw [unplacedAll, List.map_nil]
  | cons e es ih => rw [unplacedAll, List.map_cons, ih]

theorem unplaced_firstTail? (e : Expr) : e.unplaced.firstTail? = e.firstTail? := by
  fun_induction firstTail? e with
  | case1 _ _ ih | case2 _ _ _ _ ih | case3 _ _ ih | case4 _ _ ih => rw [unplaced, firstTail?, ih]
  | case5 e ha hq hr hp =>
    cases e with
    | accented a body => exact absurd rfl (ha a body)
    | quantized body steps clockwise span => exact absurd rfl (hq body steps clockwise span)
    | rotate body offset => exact absurd rfl (hr body offset)
    | progressive suffix body => exact absurd rfl (hp suffix body)
    | _ => rfl

theorem core_of_isChain (h : e.IsChain) : e.core = e := by
  cases h <;> rfl

theorem firstTail?_of_isChain (h : e.IsChain) : e.firstTail? = none := by
  cases h <;> rfl

end Rhythm.Notation.Expr
