import OdooSemantic.Lib.LevelOrder

/-!
# Python's syntax trees

`ast`, as far as the indexer looks at it: it tells names, attributes, calls and their keywords apart,
and of a function it reads the parameters and the decorators.
-/

namespace OdooSemantic

/-- A character that a name can have; of those that are not ASCII, any. -/
def isNameChar (c : Char) : Bool := c.isAlphanum || c = '_' || 128 ≤ c.toNat

/-- The name of a function or a parameter. -/
structure Identifier where
  text : String
  nonempty : text ≠ ""
  chars : ∀ c ∈ text.toList, isNameChar c = true

theorem Identifier.text_injective {a b : Identifier} (h : a.text = b.text) : a = b := by
  cases a
  cases b
  obtain rfl := h
  rfl

/-- The value of a literal. Of an inexact number only whether it is zero is looked at. -/
inductive PyConst where
  | str (s : String)
  | bytes (bs : List UInt8)
  | int (n : Int)
  | inexact (isZero : Bool)
  | bool (b : Bool)
  | none
  | ellipsis
deriving DecidableEq

/-- `bool(value)` -/
def PyConst.truth : PyConst → Bool
  | str s => s ≠ ""
  | bytes bs => bs ≠ []
  | int n => n ≠ 0
  | inexact isZero => !isZero
  | bool b => b
  | none => false
  | ellipsis => true

/-- A node of `ast`. -/
inductive PyNode where
  | constant (value : PyConst)
  | name (id : String)
  | attr (value : PyNode) (attr : String)
  | call (func : PyNode) (args keywords : List PyNode)
  | keyword (arg : Option String) (value : PyNode)
  | list (elts : List PyNode)
  /-- A pair with `**` has no key. -/
  | dict (keys : List (Option PyNode)) (values : List PyNode)
  /-- One of any other class with a field `value`, which may be `None`. -/
  | valued (present : Bool) (children : List PyNode)
  /-- One of any other class. -/
  | other (children : List PyNode)

namespace PyNode

/-- `ast.iter_child_nodes(node)` -/
def children : PyNode → List PyNode
  | constant _ => []
  | name _ => []
  | attr value _ => [value]
  | call func args keywords => func :: args ++ keywords
  | keyword _ value => [value]
  | list elts => elts
  | dict keys values => keys.filterMap id ++ values
  | valued _ children => children
  | other children => children

mutual

def count : PyNode → Nat
  | constant _ => 1
  | name _ => 1
  | attr value _ => 1 + count value
  | call func args keywords => 1 + (count func + countAll args + countAll keywords)
  | keyword _ value => 1 + count value
  | list elts => 1 + countAll elts
  | dict keys values => 1 + (countKeys keys + countAll values)
  | valued _ children => 1 + countAll children
  | other children => 1 + countAll children

def countAll : List PyNode → Nat
  | [] => 0
  | node :: nodes => count node + countAll nodes

def countKeys : List (Option PyNode) → Nat
  | [] => 0
  | none :: keys => countKeys keys
  | some key :: keys => count key + countKeys keys

end

theorem countAll_eq (nodes : List PyNode) : countAll nodes = (nodes.map count).sum := by
  induction nodes with
  | nil => rfl
  | cons node nodes ih => rw [countAll, ih, List.map_cons, List.sum_cons]

theorem countKeys_eq (keys : List (Option PyNode)) :
    countKeys keys = ((keys.filterMap id).map count).sum := by
  induction keys with
  | nil => rfl
  | cons key keys ih =>
    cases key with
    | none => exact ih
    | some key =>
      rw [countKeys, ih]
      exact (List.sum_cons).symm

theorem count_eq (node : PyNode) : node.count = 1 + (node.children.map count).sum := by
  cases node with
  | constant value => rfl
  | name id => rfl
  | attr value name => rw [count, children, List.map_singleton, List.sum_singleton]
  | call func args keywords =>
    rw [count, children, List.cons_append, List.map_cons, List.sum_cons, List.map_append,
      List.sum_append, countAll_eq, countAll_eq]
    omega
  | keyword arg value => rw [count, children, List.map_singleton, List.sum_singleton]
  | list elts => rw [count, countAll_eq, children]
  | dict keys values =>
    rw [count, children, countKeys_eq, countAll_eq, List.map_append, List.sum_append]
  | valued present children => rw [count, countAll_eq, PyNode.children]
  | other children => rw [count, countAll_eq, PyNode.children]

/-- `ast.walk(node)` -/
def walk (node : PyNode) : List PyNode := LevelOrder.visit children node.count [node]

/-- The walk comes to everything in the tree. -/
theorem mem_walk {top node : PyNode} : node ∈ top.walk ↔ LevelOrder.Below children top node := by
  rw [walk, LevelOrder.mem_visit count_eq]
  · simp
  · simp

end PyNode

/-! ## Functions -/

/-- `ast.arg` -/
structure PyArg where
  arg : Identifier
  annotation : Option PyNode := none

/-- `ast.arguments` -/
structure PyArguments where
  posonlyargs : List PyArg := []
  args : List PyArg := []
  vararg : Option PyArg := none
  kwonlyargs : List PyArg := []
  kwDefaults : List (Option PyNode) := []
  kwarg : Option PyArg := none
  defaults : List PyNode := []

/-- `ast.FunctionDef` and `ast.AsyncFunctionDef` -/
structure FunctionDef where
  name : Identifier
  args : PyArguments := {}
  body : List PyNode := []
  decoratorList : List PyNode := []
  returns : Option PyNode := none
  typeParams : List PyNode := []
  lineno : Nat := 1

def PyArg.node (a : PyArg) : PyNode := .other a.annotation.toList

def PyArguments.node (a : PyArguments) : PyNode :=
  .other (a.posonlyargs.map PyArg.node ++ a.args.map PyArg.node ++ (a.vararg.map PyArg.node).toList ++
    a.kwonlyargs.map PyArg.node ++ a.kwDefaults.filterMap id ++ (a.kwarg.map PyArg.node).toList ++
    a.defaults)

def FunctionDef.node (f : FunctionDef) : PyNode :=
  .other (f.args.node :: f.body ++ f.decoratorList ++ f.returns.toList ++ f.typeParams)

/-! ## Files -/

/-- `ast.alias` -/
structure PyAlias where
  name : String
  asname : Option String := none

/-- A statement in the body of a class. -/
inductive ClassStmt where
  | assign (targets : List PyNode) (value : PyNode)
  | functionDef (f : FunctionDef)
  | other

/-- `ast.ClassDef` -/
structure ClassDef where
  name : String
  bases : List PyNode := []
  body : List ClassStmt := []

/-- A statement of a file, outside of any other. -/
inductive TopLevel where
  | importNames (names : List PyAlias)
  | importFrom (module : Option String) (names : List PyAlias) (level : Nat)
  /-- A function, `async` or not. -/
  | function (f : FunctionDef)
  | classDef (c : ClassDef)
  | other

end OdooSemantic
