import Rhythm.Proofs.Notation.Demands
import Rhythm.Proofs.Notation.Places

/-! The nodes of an expression, and where in a scene each kind of node can stand. -/
namespace Rhythm.Notation

variable {e body x y : Expr} {es : List Expr} {b : Bool} {suffix : Suffix}

namespace Expr

mutual

/-- All nodes below the first one. -/
def inner : Expr → List Expr
  | .literal _ | .generator .. | .bell .. => []
  | .accented accent body => accent :: accent.inner ++ body :: body.inner
  | .quantized body .. => body :: body.inner
  | .progressive _ body => body :: body.inner
  | .combination _ left right _ => left :: left.inner ++ right :: right.inner
  | .chain parts _ => allNodes parts
  | .invert body => body :: body.inner
  | .reverse body => body :: body.inner
  | .rotate body _ => body :: body.inner
  | .scenes parts => allNodes parts

def allNodes : List Expr → List Expr
  | [] => []
  | e :: es => e :: e.inner ++ allNodes es

end

/-- The nodes of an expression, itself first. -/
def nodes (e : Expr) : List Expr := e :: e.inner

/-- Whether the first node changes from trigger to trigger. -/
def evolves : Expr → Bool
  | .progressive .. => true
  | _ => false

/-- Whether the first node is a projection or a rotation. -/
def isTail : Expr → Bool
  | .quantized .. | .rotate .. => true
  | _ => false

/-- The suffix of an expression, and what stands under it. -/
def suffixed? : Expr → Option (Suffix × Expr)
  | .progressive suffix body => some (suffix, body)
  | .accented _ body | .quantized body .. | .rotate body _ => body.suffixed?
  | _ => none

theorem mem_nodes : x ∈ e.nodes ↔ x = e ∨ x ∈ e.inner := List.mem_cons

theorem self_mem_nodes (e : Expr) : e ∈ e.nodes := List.mem_cons_self

theorem mem_allNodes : x ∈ allNodes es ↔ ∃ e ∈ es, x ∈ e.nodes := by
  induction es with
  | nil => simp [allNodes]
  | cons e es ih =>
    rw [allNodes, List.mem_append, ih, List.exists_mem_cons_iff]
    rfl

/-- All that is in a chain is what chains are made of. -/
theorem IsChain.of_mem_nodes (h : e.IsChain) (hx : x ∈ e.nodes) : x.IsChain := by
  induction h with
  | literal | generator | bell =>
    obtain rfl | hx := mem_nodes.1 hx
    · constructor <;> assumption
    · cases hx
  | @combination _ _ _ _ hl hr ihl ihr =>
    obtain rfl | hx := mem_nodes.1 hx
    · exact .combination hl hr
    · rw [inner] at hx
      exact (List.mem_append.1 hx).elim ihl ihr
  | @chain _ _ h ih =>
    obtain rfl | hx := mem_nodes.1 hx
    · exact .chain h
    · rw [inner] at hx
      obtain ⟨part, hpart, hx⟩ := mem_allNodes.1 hx
      exact ih part hpart hx
  | invert h ih =>
    obtain rfl | hx := mem_nodes.1 hx
    · exact .invert h
    · exact ih hx
  | reverse h ih =>
    obtain rfl | hx := mem_nodes.1 hx
    · exact .reverse h
    · exact ih hx

theorem IsChain.evolves_eq (h : e.IsChain) : e.evolves = false := by
  cases h <;> rfl

theorem IsChain.isTail_eq (h : e.IsChain) : e.isTail = false := by
  cases h <;> rfl

theorem IsChain.accent?_eq (h : e.IsChain) : e.accent? = none := by
  cases h <;> rfl

theorem IsChain.filter_evolves (h : e.IsChain) : e.nodes.filter evolves = [] := by
  rw [List.filter_eq_nil_iff]
  intro x hx hev
  rw [(h.of_mem_nodes hx).evolves_eq] at hev
  cases hev

theorem IsChain.suffixed?_eq (h : e.IsChain) : e.suffixed? = none := by
  cases h <;> rfl

/-- All that is in a body is a body. -/
theorem IsBody.of_mem_nodes (h : e.IsBody b) (hx : x ∈ e.nodes) : ∃ b, x.IsBody b := by
  induction h with
  | chain h => exact ⟨_, .chain (h.of_mem_nodes hx)⟩
  | quantized hp hl h ih =>
    obtain rfl | hx := mem_nodes.1 hx
    · exact ⟨_, .quantized hp hl h⟩
    · exact ih hx
  | rotate h ih =>
    obtain rfl | hx := mem_nodes.1 hx
    · exact ⟨_, .rotate h⟩
    · exact ih hx
  | progressive h ih =>
    obtain rfl | hx := mem_nodes.1 hx
    · exact ⟨_, .progressive h⟩
    · exact ih hx

theorem IsBody.accent?_eq (h : e.IsBody b) : e.accent? = none := by
  cases h with
  | chain h => exact h.accent?_eq
  | _ => rfl

theorem IsBody.steps_le {steps : Nat} {clockwise : Bool} {span : Span}
    (h : (Expr.quantized body steps clockwise span).IsBody b) : 1 ≤ steps ∧ steps ≤ 128 := by
  cases h with
  | chain h => cases h
  | quantized hp hl _ => exact ⟨hp, hl⟩

theorem IsBody.takes {family : Family} {args : List Int} {span : Span}
    (h : (Expr.generator family args span).IsBody b) : family.Takes args := by
  cases h with
  | chain h =>
    cases h with
    | generator h => exact h

/-- A body has a suffix or none, as the flag tells. -/
theorem IsBody.isSome_suffixed? (h : e.IsBody b) : e.suffixed?.isSome = b := by
  induction h with
  | chain h => rw [h.suffixed?_eq, Option.isSome_none]
  | quantized _ _ _ ih => exact ih
  | rotate _ ih => exact ih
  | progressive => rfl

theorem IsBody.suffixed?_eq (h : e.IsBody false) : e.suffixed? = none := by
  rw [← Option.not_isSome_iff_eq_none, h.isSome_suffixed?]
  exact Bool.false_ne_true

/-- The one node that evolves is that of the suffix. -/
theorem IsBody.filter_evolves (h : e.IsBody b) :
    e.nodes.filter evolves = (e.suffixed?.map fun s => .progressive s.1 s.2).toList := by
  induction h with
  | chain h =>
    rw [h.filter_evolves, h.suffixed?_eq]
    rfl
  | quantized _ _ _ ih => exact ih
  | rotate _ ih => exact ih
  | @progressive suffix body h ih =>
    rw [h.suffixed?_eq] at ih
    rw [suffixed?, nodes, List.filter_cons_of_pos rfl]
    exact congrArg _ ih

/-- Under the suffix is a body without one, with the same core. -/
theorem IsBody.of_suffixed? (h : e.IsBody b) (hs : e.suffixed? = some (suffix, body)) :
    body.IsBody false ∧ body.core = e.core := by
  induction h with
  | chain h =>
    rw [h.suffixed?_eq] at hs
    cases hs
  | quantized _ _ _ ih => exact ih hs
  | rotate _ ih => exact ih hs
  | progressive h =>
    cases hs
    exact ⟨h, rfl⟩

theorem IsBody.core_isChain (h : e.IsBody b) : e.core.IsChain := by
  induction h with
  | chain h =>
    rw [core_of_isChain h]
    exact h
  | quantized _ _ _ ih => exact ih
  | rotate _ ih => exact ih
  | progressive _ ih => exact ih

theorem IsBody.core_mem_nodes (h : e.IsBody b) : e.core ∈ e.nodes := by
  induction h with
  | chain h =>
    rw [core_of_isChain h]
    exact self_mem_nodes _
  | quantized _ _ _ ih => exact mem_nodes.2 (.inr ih)
  | rotate _ ih => exact mem_nodes.2 (.inr ih)
  | progressive _ ih => exact mem_nodes.2 (.inr ih)

theorem IsBody.not_evolves (h : e.IsBody false) (hx : x ∈ e.nodes) : x.evolves = false := by
  have hnil := h.filter_evolves
  rw [h.suffixed?_eq] at hnil
  exact Bool.eq_false_iff.2 (List.filter_eq_nil_iff.1 hnil x hx)

/-- Only projections and rotations stand above the node that evolves. -/
theorem IsBody.isTail_of_inner (h : e.IsBody b) (hy : y ∈ e.inner) (hev : y.evolves = true) :
    e.isTail = true := by
  cases h with
  | chain h =>
    rw [(h.of_mem_nodes (mem_nodes.2 (.inr hy))).evolves_eq] at hev
    cases hev
  | quantized | rotate => rfl
  | progressive h =>
    rw [h.not_evolves hy] at hev
    cases hev

/-- Where the nodes of a scene stand. An accent is at the root and has no tails in it. At most one
node evolves, and only projections, rotations and the accent are above it. -/
structure SceneTree (e : Expr) : Prop where
  accent_root : ∀ x ∈ e.inner, x.accent? = none
  accent_plain : ∀ a, e.accent? = some a → ∀ x ∈ a.nodes, x.evolves = false ∧ x.isTail = false
  evolves_once : e.nodes.countP evolves ≤ 1
  above_evolving : ∀ x ∈ e.nodes, ∀ y ∈ x.inner, y.evolves = true →
    x.isTail = true ∨ (x = e ∧ e.accent?.isSome = true)
  steps_le : ∀ body steps clockwise span, quantized body steps clockwise span ∈ e.nodes →
    1 ≤ steps ∧ steps ≤ 128
  takes : ∀ family args span, generator family args span ∈ e.nodes → family.Takes args

/-- Every node below the root of a scene is that of a body. -/
theorem IsScene.of_mem_inner (h : e.IsScene) (hx : x ∈ e.inner) : ∃ b, x.IsBody b := by
  cases h with
  | bare h => exact h.of_mem_nodes (mem_nodes.2 (.inr hx))
  | accented ha h =>
    rw [inner] at hx
    obtain hx | hx := List.mem_append.1 hx
    · exact ⟨_, .chain (ha.of_mem_nodes hx)⟩
    · exact h.of_mem_nodes hx

theorem IsScene.filter_evolves (h : e.IsScene) :
    e.nodes.filter evolves = (e.suffixed?.map fun s => .progressive s.1 s.2).toList := by
  cases h with
  | bare h => exact h.filter_evolves
  | @accented _ a body ha h =>
    change (a.nodes ++ body.nodes).filter evolves = _
    rw [List.filter_append, ha.filter_evolves, List.nil_append]
    exact h.filter_evolves

/-- A node that evolves is that of the suffix. -/
theorem IsScene.progressive_mem_iff (h : e.IsScene) :
    progressive suffix body ∈ e.nodes ↔ e.suffixed? = some (suffix, body) := by
  have hmem : progressive suffix body ∈ e.nodes ↔
      progressive suffix body ∈ e.nodes.filter evolves := by
    rw [List.mem_filter]
    exact (and_iff_left rfl).symm
  rw [hmem, h.filter_evolves, Option.mem_toList, Option.map_eq_some_iff]
  constructor
  · rintro ⟨s, hs, heq⟩
    cases heq
    exact hs
  · exact fun hs => ⟨_, hs, rfl⟩

theorem IsScene.of_suffixed? (h : e.IsScene) (hs : e.suffixed? = some (suffix, body)) :
    body.IsBody false ∧ body.core = e.core := by
  cases h with
  | bare h => exact h.of_suffixed? hs
  | accented _ h => exact h.of_suffixed? hs

theorem IsScene.core_isChain (h : e.IsScene) : e.core.IsChain := by
  cases h with
  | bare h => exact h.core_isChain
  | accented _ h => exact h.core_isChain

theorem IsScene.sceneTree (h : e.IsScene) : e.SceneTree where
  accent_root x hx := by
    obtain ⟨_, hx⟩ := h.of_mem_inner hx
    exact hx.accent?_eq
  accent_plain a ha x hx := by
    cases h with
    | bare h =>
      rw [h.accent?_eq] at ha
      cases ha
    | accented hc _ =>
      cases ha
      exact ⟨(hc.of_mem_nodes hx).evolves_eq, (hc.of_mem_nodes hx).isTail_eq⟩
  evolves_once := by
    rw [List.countP_eq_length_filter, h.filter_evolves]
    exact Option.length_toList_le
  above_evolving x hx y hy hev := by
    obtain rfl | hx := mem_nodes.1 hx
    · cases h with
      | bare h => exact .inl (h.isTail_of_inner hy hev)
      | accented => exact .inr ⟨rfl, rfl⟩
    · obtain ⟨_, hx⟩ := h.of_mem_inner hx
      exact .inl (hx.isTail_of_inner hy hev)
  steps_le body steps clockwise span hx := by
    obtain rfl | hx := mem_nodes.1 hx
    · cases h with
      | bare h => exact h.steps_le
    · obtain ⟨_, hx⟩ := h.of_mem_inner hx
      exact hx.steps_le
  takes family args span hx := by
    obtain rfl | hx := mem_nodes.1 hx
    · cases h with
      | bare h => exact h.takes
    · obtain ⟨_, hx⟩ := h.of_mem_inner hx
      exact hx.takes

end Expr

end Rhythm.Notation
