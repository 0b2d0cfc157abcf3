import Mathlib.Data.List.Basic

/-!
# Outlines

A tree of labels, as a list of lines with their depths. The lines say everything: read from the
end, a line takes the deeper ones that stand right behind it for its children (`attach`).
-/

namespace OdooSemantic

inductive Outline (L : Type) where
  | node (label : L) (children : List (Outline L))

namespace Outline

variable {L : Type}

/-- A tree without children. -/
def leaf (label : L) : Outline L := node label []

mutual

/-- The labels with their depths, from the top to the bottom. -/
def lines (depth : Nat) : Outline L → List (Nat × L)
  | node label children => (depth, label) :: forestLines (depth + 1) children

def forestLines (depth : Nat) : List (Outline L) → List (Nat × L)
  | [] => []
  | tree :: trees => tree.lines depth ++ forestLines depth trees

end

/-- A line in front of the trees that have been read. -/
def attach (line : Nat × L) (trees : List (Nat × Outline L)) : List (Nat × Outline L) :=
  (line.1, node line.2 ((trees.takeWhile fun t => line.1 < t.1).map (·.2))) ::
    trees.dropWhile fun t => line.1 < t.1

def ofLines (lines : List (Nat × L)) : List (Outline L) := (lines.foldr attach []).map (·.2)

/-- The tree in front of these is no child of one at this depth. -/
def Shallow (depth : Nat) (trees : List (Nat × Outline L)) : Prop :=
  ∀ t ∈ trees.head?, t.1 ≤ depth

theorem attach_map_append {depth : Nat} {label : L} {children : List (Outline L)}
    {trees : List (Nat × Outline L)} (h : Shallow depth trees) :
    attach (depth, label) (children.map (fun t => (depth + 1, t)) ++ trees) =
      (depth, node label children) :: trees := by
  have hdeeper : ∀ t ∈ children.map (fun t => (depth + 1, t)), decide (depth < t.1) = true := by
    intro t ht
    obtain ⟨tree, -, rfl⟩ := List.mem_map.mp ht
    exact decide_eq_true (Nat.lt_succ_self depth)
  have hstop : trees.takeWhile (fun t => decide (depth < t.1)) = [] ∧
      trees.dropWhile (fun t => decide (depth < t.1)) = trees := by
    cases trees with
    | nil => exact ⟨rfl, rfl⟩
    | cons t trees =>
      have ht : ¬depth < t.1 := Nat.not_lt.mpr (h t rfl)
      exact ⟨List.takeWhile_cons_of_neg (by simpa using ht),
        List.dropWhile_cons_of_neg (by simpa using ht)⟩
  unfold attach
  rw [List.takeWhile_append_of_pos hdeeper, List.dropWhile_append_of_pos hdeeper, hstop.1, hstop.2,
    List.append_nil, List.map_map]
  simp [Function.comp_def]

mutual

/-- **The lines of a tree are read as the tree**, whatever stands behind them. -/
theorem foldr_lines (depth : Nat) {trees : List (Nat × Outline L)} (h : Shallow depth trees) :
    ∀ t : Outline L, (t.lines depth).foldr attach trees = (depth, t) :: trees
  | node label children => by
    have hshallow : Shallow (depth + 1) trees :=
      fun t ht => Nat.le_succ_of_le (h t ht)
    rw [lines, List.foldr_cons, foldr_forestLines (depth + 1) hshallow children]
    exact attach_map_append h

theorem foldr_forestLines (depth : Nat) {trees : List (Nat × Outline L)}
    (h : Shallow depth trees) :
    ∀ ts : List (Outline L), (forestLines depth ts).foldr attach trees =
      ts.map (fun t => (depth, t)) ++ trees
  | [] => rfl
  | t :: ts => by
    have hrest : Shallow depth (ts.map (fun t => (depth, t)) ++ trees) := by
      intro t' ht'
      cases ts with
      | nil => exact h t' ht'
      | cons u us =>
        obtain rfl : (depth, u) = t' := Option.some.inj ht'
        exact Nat.le_refl depth
    rw [forestLines, List.foldr_append, foldr_forestLines depth h ts,
      foldr_lines depth hrest t]
    rfl

end

theorem ofLines_forestLines (depth : Nat) (ts : List (Outline L)) :
    ofLines (forestLines depth ts) = ts := by
  have hread := @foldr_forestLines L depth [] (fun _ ht => absurd ht (by simp)) ts
  rw [ofLines, hread, List.append_nil, List.map_map]
  exact List.map_id ts

end Outline

end OdooSemantic
