import OdooSemantic.Lib.PyText

/-!
# What tree-sitter hands over

A node has a type, a range of bytes and its children; its parent is the one it is met under on the
way down. Which tree belongs to which bytes is the grammar's business.
-/

namespace OdooSemantic

inductive Node where
  | mk (type : String) (startByte endByte : Nat) (children : List Node)

namespace Node

def type : Node → String
  | mk type _ _ _ => type

def children : Node → List Node
  | mk _ _ _ children => children

def startByte : Node → Nat
  | mk _ startByte _ _ => startByte

def endByte : Node → Nat
  | mk _ _ endByte _ => endByte

mutual

/-- `_walk(node)`, every node with its parent. -/
def walk (parent : Option Node) : Node → List (Option Node × Node)
  | mk type startByte endByte children =>
      (parent, mk type startByte endByte children) ::
        walkAll (mk type startByte endByte children) children

def walkAll (parent : Node) : List Node → List (Option Node × Node)
  | [] => []
  | node :: nodes => walk (some parent) node ++ walkAll parent nodes

end

/-- `_find_first_child_by_type(node, type_)` -/
def firstChild (node : Node) (type' : String) : Option Node :=
  node.children.find? fun c => c.type = type'

/-- `source[node.start_byte:node.end_byte]` -/
def bytes (source : List UInt8) (node : Node) : List UInt8 :=
  (source.take node.endByte).drop node.startByte

/-- `_ts_node_text(node, source)` -/
def text (source : List UInt8) (node : Node) : List Char := PyText.decode (node.bytes source)

/-- The node is this word. -/
def spells (source : List UInt8) (word : String) (node : Node) : Bool :=
  node.bytes source = word.toList.map fun c => UInt8.ofNat c.toNat

end Node
end OdooSemantic
