import Mathlib.Algebra.GroupWithZero.Nat
import Mathlib.Data.List.Basic
import Mathlib.Logic.Relation

/-!
# Level by level

A queue holds the nodes that are still to be visited; the children of a visited node go to its end.
Everything below a node is visited, once for each place that it has in the tree, and nothing else.

`climb` is what is a few edges away: `(a)-[*1..n]->(b)` over a list of nodes. A pattern of that kind
does not use an edge twice, but a walk that does has a shorter one to the same end, so the ends are
those of all walks.
-/

namespace OdooSemantic
namespace LevelOrder

section Queue

variable {α : Type} (children : α → List α)

/-- The queue, for so many visits. -/
def visit : Nat → List α → List α
  | 0, _ => []
  | _ + 1, [] => []
  | fuel + 1, node :: todo => node :: visit fuel (todo ++ children node)

/-- A node, or what is below it. -/
def Below (top node : α) : Prop := Relation.ReflTransGen (fun a b => b ∈ children a) top node

variable {children} {count : α → Nat}
  (hcount : ∀ node, count node = 1 + ((children node).map count).sum)

theorem below_iff {top node : α} :
    Below children top node ↔ node = top ∨ ∃ child ∈ children top, Below children child node := by
  rw [Below, Relation.ReflTransGen.cases_head_iff]
  constructor
  · rintro (rfl | ⟨child, hchild, hbelow⟩)
    · exact Or.inl rfl
    · exact Or.inr ⟨child, hchild, hbelow⟩
  · rintro (rfl | ⟨child, hchild, hbelow⟩)
    · exact Or.inl rfl
    · exact Or.inr ⟨child, hchild, hbelow⟩

include hcount in
/-- With a visit for every node, all are visited. -/
theorem mem_visit {node : α} (fuel : Nat) (todo : List α) (hfuel : (todo.map count).sum ≤ fuel) :
    node ∈ visit children fuel todo ↔ ∃ top ∈ todo, Below children top node := by
  induction fuel generalizing todo with
  | zero =>
    cases todo with
    | nil => simp [visit]
    | cons top todo =>
      rw [List.map_cons, List.sum_cons, hcount] at hfuel
      exact absurd hfuel (by omega)
  | succ fuel ih =>
    cases todo with
    | nil => simp [visit]
    | cons top todo =>
      rw [List.map_cons, List.sum_cons, hcount] at hfuel
      have hrest : ((todo ++ children top).map count).sum ≤ fuel := by
        rw [List.map_append, List.sum_append]
        omega
      rw [visit, List.mem_cons, ih _ hrest]
      constructor
      · rintro (rfl | ⟨below, hmem, hbelow⟩)
        · exact ⟨node, List.mem_cons_self, Relation.ReflTransGen.refl⟩
        · rcases List.mem_append.mp hmem with htodo | hchild
          · exact ⟨below, List.mem_cons_of_mem _ htodo, hbelow⟩
          · exact ⟨top, List.mem_cons_self, below_iff.mpr (Or.inr ⟨below, hchild, hbelow⟩)⟩
      · rintro ⟨below, hmem, hbelow⟩
        rcases List.mem_cons.mp hmem with rfl | htodo
        · rcases below_iff.mp hbelow with rfl | ⟨child, hchild, hbelow⟩
          · exact Or.inl rfl
          · exact Or.inr ⟨child, List.mem_append_right _ hchild, hbelow⟩
        · exact Or.inr ⟨below, List.mem_append_left _ htodo, hbelow⟩

end Queue

end LevelOrder

/-! ## A bounded climb -/

section Climb

variable {α : Type} (nodes : List α) (edge : α → α → Bool)

/-- One edge away from one of these. -/
def above (starts : List α) : List α := nodes.filter fun b => starts.any fun a => edge a b

/-- One edge away, or two, up to that many. -/
def climb : Nat → List α → List α
  | 0, _ => []
  | n + 1, starts => above nodes edge starts ++ climb n (above nodes edge starts)

/-- A walk of that many edges, over the nodes of the list. -/
def Walk : Nat → α → α → Prop
  | 0, a, b => a = b
  | n + 1, a, b => ∃ c ∈ nodes, edge a c = true ∧ Walk n c b

variable {nodes edge} {starts : List α} {a b : α}

theorem mem_above : b ∈ above nodes edge starts ↔ b ∈ nodes ∧ ∃ a ∈ starts, edge a b = true := by
  rw [above, List.mem_filter, List.any_eq_true]

theorem mem_climb {n : Nat} :
    b ∈ climb nodes edge n starts ↔ ∃ k, 0 < k ∧ k ≤ n ∧ ∃ a ∈ starts, Walk nodes edge k a b := by
  induction n generalizing starts with
  | zero =>
    constructor
    · exact fun h => absurd h List.not_mem_nil
    · intro h
      obtain ⟨k, hpos, hle, -⟩ := h
      omega
  | succ n ih =>
    rw [climb, List.mem_append, ih, mem_above]
    constructor
    · intro h
      cases h with
      | inl hone =>
        obtain ⟨hb, a, ha, hedge⟩ := hone
        exact ⟨1, Nat.one_pos, Nat.le_add_left 1 n, a, ha, b, hb, hedge, rfl⟩
      | inr hmore =>
        obtain ⟨k, -, hle, c, hc, hwalk⟩ := hmore
        obtain ⟨hnode, a, ha, hedge⟩ := mem_above.mp hc
        exact ⟨k + 1, Nat.succ_pos k, Nat.succ_le_succ hle, a, ha, c, hnode, hedge, hwalk⟩
    · intro h
      obtain ⟨k, hpos, hle, a, ha, hwalk⟩ := h
      obtain ⟨k, rfl⟩ := Nat.exists_eq_succ_of_ne_zero (Nat.pos_iff_ne_zero.mp hpos)
      obtain ⟨c, hnode, hedge, hwalk⟩ := hwalk
      cases k with
      | zero =>
        obtain rfl : c = b := hwalk
        exact Or.inl ⟨hnode, a, ha, hedge⟩
      | succ k =>
        have hc : c ∈ above nodes edge starts := mem_above.mpr ⟨hnode, a, ha, hedge⟩
        exact Or.inr ⟨k + 1, Nat.succ_pos k, Nat.le_of_succ_le_succ hle, c, hc, hwalk⟩

end Climb

end OdooSemantic
