import PatternSampler.Pattern.Node
/-!
# Subnodes

A tree's nodes, the tree itself included, and the induction over trees that gives a hypothesis for
every item of a sequence and every arm of a choice.
-/
set_option autoImplicit false

namespace PatternSampler.Node

/-! ## Induction -/

/-- Induction over trees, with one hypothesis for each node right below. -/
@[elab_as_elim]
theorem inductionOn {motive : Node → Prop} (n : Node)
    (empty : motive .empty)
    (char : ∀ c, motive (.char c))
    (any : motive .any)
    (charClass : ∀ cls, motive (.charClass cls))
    (concat : ∀ items, (∀ item ∈ items, motive item) → motive (.concat items))
    (alternate : ∀ arms, (∀ arm ∈ arms, motive arm) → motive (.alternate arms))
    (group : ∀ body, motive body → motive (.group body))
    (capture : ∀ index body, motive body → motive (.capture index body))
    (repetition : ∀ body min max isLazy, motive body →
      motive (.repetition body min max isLazy))
    (backref : ∀ group, motive (.backref group))
    (assert : ∀ anchor, motive (.assert anchor))
    (lookAround : ∀ body negative behind, motive body →
      motive (.lookAround body negative behind)) : motive n :=
  @Node.rec motive (fun ns => ∀ m ∈ ns, motive m) empty char any charClass concat alternate group
    capture repetition backref assert lookAround
    (fun _ h => absurd h List.not_mem_nil)
    (fun _ _ hHead hTail _ hm => (List.mem_cons.mp hm).elim (· ▸ hHead) (hTail _)) n

/-! ## All nodes of a tree -/

mutual

/-- The nodes of a tree, each before those below it. -/
def subnodes : Node → List Node
  | .concat items => .concat items :: subnodesOf items
  | .alternate arms => .alternate arms :: subnodesOf arms
  | .group body => .group body :: subnodes body
  | .capture index body => .capture index body :: subnodes body
  | .repetition body min max isLazy => .repetition body min max isLazy :: subnodes body
  | .lookAround body negative behind => .lookAround body negative behind :: subnodes body
  | n => [n]

/-- The nodes of several trees. -/
def subnodesOf : List Node → List Node
  | [] => []
  | n :: ns => subnodes n ++ subnodesOf ns

end

theorem mem_subnodesOf {ns : List Node} {m : Node} :
    m ∈ subnodesOf ns ↔ ∃ n ∈ ns, m ∈ n.subnodes := by
  induction ns with
  | nil => simp [subnodesOf]
  | cons n ns ih => simp [subnodesOf, ih]

theorem self_mem_subnodes (n : Node) : n ∈ n.subnodes := by
  cases n <;> simp [subnodes]

/-- Whether something holds of every node of a tree. -/
def Everywhere (P : Node → Prop) (n : Node) : Prop := ∀ m ∈ n.subnodes, P m

namespace Everywhere

variable {P : Node → Prop} {n : Node}

theorem self (h : n.Everywhere P) : P n := h n n.self_mem_subnodes

theorem mono {Q : Node → Prop} (h : n.Everywhere P) (hPQ : ∀ m, P m → Q m) : n.Everywhere Q :=
  fun m hm => hPQ m (h m hm)

/-- Nothing is below the node. -/
theorem leaf (hn : n.subnodes = [n]) (h : P n) : n.Everywhere P := by
  rw [Everywhere, hn]
  exact List.forall_mem_singleton.mpr h

theorem concat_iff {items : List Node} :
    (concat items).Everywhere P ↔ P (.concat items) ∧ ∀ item ∈ items, item.Everywhere P := by
  simp only [Everywhere, subnodes, List.mem_cons, forall_eq_or_imp, mem_subnodesOf]
  grind

theorem alternate_iff {arms : List Node} :
    (alternate arms).Everywhere P ↔ P (.alternate arms) ∧ ∀ arm ∈ arms, arm.Everywhere P := by
  simp only [Everywhere, subnodes, List.mem_cons, forall_eq_or_imp, mem_subnodesOf]
  grind

theorem group_iff {body : Node} :
    (group body).Everywhere P ↔ P (.group body) ∧ body.Everywhere P := by
  simp [Everywhere, subnodes]

theorem capture_iff {index : Nat} {body : Node} :
    (capture index body).Everywhere P ↔ P (.capture index body) ∧ body.Everywhere P := by
  simp [Everywhere, subnodes]

theorem repetition_iff {body : Node} {min : Nat} {max : Option Nat} {isLazy : Bool} :
    (repetition body min max isLazy).Everywhere P ↔
      P (.repetition body min max isLazy) ∧ body.Everywhere P := by
  simp [Everywhere, subnodes]

theorem lookAround_iff {body : Node} {negative behind : Bool} :
    (lookAround body negative behind).Everywhere P ↔
      P (.lookAround body negative behind) ∧ body.Everywhere P := by
  simp [Everywhere, subnodes]

end Everywhere

instance {P : Node → Prop} [DecidablePred P] (n : Node) : Decidable (n.Everywhere P) :=
  inferInstanceAs (Decidable (∀ m ∈ n.subnodes, P m))

end PatternSampler.Node
