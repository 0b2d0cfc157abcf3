import OdooSemantic.Lib.Outline

/-!
# `src/mcp/tree_builder.py`

The tree grammar of the answers: a line for each node, behind the connector that says whether it
is the last child of its parent, and behind what its ancestors have left to the left of it.
-/

namespace OdooSemantic

inductive TreeNode where
  | node (label : String) (children : List TreeNode) (isRoot : Bool)

namespace TreeNode

/-- `TreeNode(label)` -/
def leaf (label : String) : TreeNode := node label [] false

/-- `self.add(child)` -/
def add (child : TreeNode) : TreeNode → TreeNode
  | node label children isRoot => node label (children ++ [child]) isRoot

def connector (isLast : Bool) : String := if isLast then "└─" else "├─"

/-- What the children of a node have to their left, beyond what it has itself. -/
def continuation (isLast : Bool) : String := if isLast then "    " else "│   "

mutual

/-- `self._render_into(lines, prefix, is_last)`: the lines that are added. -/
def renderInto (indent : String) (isLast : Bool) : TreeNode → List String
  | node label children isRoot =>
      if isRoot then label :: renderChildren "" children
      else (indent ++ connector isLast ++ " " ++ label) ::
        renderChildren (indent ++ continuation isLast) children

/-- The loop over the children. The last one is the one with nothing behind it. -/
def renderChildren (indent : String) : List TreeNode → List String
  | [] => []
  | child :: rest => child.renderInto indent rest.isEmpty ++ renderChildren indent rest

end

/-- `self.render()` -/
def render (t : TreeNode) : String := "\n".intercalate (t.renderInto "" true)

end TreeNode

end OdooSemantic
