import OdooSemantic.Lib.FlaggedEdges

/-!
# View and QWeb nodes — declared under one key, referenced under another

The two XML labels are the only ones whose nodes are not addressed by their `MERGE` key.
A declaration merges on `(xmlid, odoo_version)`; the placeholder of a missing base merges on
`(xmlid, '__unresolved__', odoo_version)`, and a declaration then *rewrites* the `module` of
whatever it matched. So a node needs an identity of its own here, and the store is a list of
nodes, not a map.

`View` and `QWebTmpl` differ in the properties a declaration sets and in nothing else; the
store is written once, over a parameter `P` for these properties.
-/

namespace OdooSemantic

open KeyedStore FlaggedEdges

/-- The `module` of a placeholder node. -/
def unresolvedModule : String := "__unresolved__"

/-- `[x IN coalesce(n.profile, []) WHERE NOT x IN $profiles] + $profiles`. -/
def unionProfile (old : Option (List String)) (profiles : List String) : List String :=
  (old.getD []).filter (· ∉ profiles) ++ profiles

structure XmlNode (P : Type) where
  id : Nat
  xmlid : String
  odooVersion : String
  module : String
  /-- `coalesce(n.unresolved, false)`. -/
  unresolved : Bool
  profile : Option (List String)
  /-- What a declaration sets; `none` on a placeholder. -/
  props : Option P
deriving DecidableEq

structure XmlStore (P : Type) where
  nodes : List (XmlNode P) := []
  /-- `INHERITS_VIEW`, `EXTENDS_TMPL`: between node identities, flagged when unresolved. -/
  links : Edges Nat Nat Unit := ∅

namespace XmlNode

variable {P : Type}

/-- The node matches `{xmlid: $xmlid, odoo_version: $ver}`. -/
def At (n : XmlNode P) (xmlid ver : String) : Prop := n.xmlid = xmlid ∧ n.odooVersion = ver

instance (n : XmlNode P) (xmlid ver : String) : Decidable (n.At xmlid ver) :=
  inferInstanceAs (Decidable (_ ∧ _))

end XmlNode

namespace XmlStore

variable {P : Type}

/-- An identity no node of the list has. -/
def freshId (ns : List (XmlNode P)) : Nat := (ns.map (·.id)).foldr max 0 + 1

/-- `MERGE` on a pattern: every node that matches goes through `onMatch`, and where none
    does, `create` is added under a fresh identity. -/
def mergeWhere (p : XmlNode P → Prop) [DecidablePred p] (create : Nat → XmlNode P)
    (onMatch : XmlNode P → XmlNode P) (ns : List (XmlNode P)) : List (XmlNode P) :=
  if ∃ n ∈ ns, p n then ns.map fun n => if p n then onMatch n else n
  else ns ++ [create (freshId ns)]

/-- `MATCH (n {xmlid: $xmlid, odoo_version: $ver})`. -/
def matching (s : XmlStore P) (xmlid ver : String) : List (XmlNode P) :=
  s.nodes.filter fun n => n.At xmlid ver

/-- … `WHERE NOT coalesce(n.unresolved, false)`. -/
def resolved (s : XmlStore P) (xmlid ver : String) : List (XmlNode P) :=
  (s.matching xmlid ver).filter fun n => !n.unresolved

/-- The `MERGE` of a declaration and its `SET` — note what is missing: `unresolved` is set
    nowhere in it. -/
def declare (profiles : List String) (xmlid ver module : String) (props : P)
    (s : XmlStore P) : XmlStore P :=
  { s with
    nodes := mergeWhere (fun n => n.At xmlid ver)
      (fun i => { id := i, xmlid, odooVersion := ver, module, unresolved := false,
                  profile := some profiles, props := some props })
      (fun n => { n with module, profile := some (unionProfile n.profile profiles),
                         props := some props })
      s.nodes }

/-- The pattern of the placeholder `MERGE`. -/
def IsStub (base ver : String) (n : XmlNode P) : Prop :=
  n.At base ver ∧ n.module = unresolvedModule

instance (base ver : String) : DecidablePred (IsStub (P := P) base ver) :=
  fun _ => inferInstanceAs (Decidable (_ ∧ _))

/-- `MERGE (placeholder {xmlid: $inherit_xmlid, module: '__unresolved__', …})`. -/
def mergeStubNode (profiles : List String) (base ver : String) (ns : List (XmlNode P)) :
    List (XmlNode P) :=
  mergeWhere (IsStub base ver)
    (fun i => { id := i, xmlid := base, odooVersion := ver, module := unresolvedModule,
                unresolved := true, profile := some profiles, props := none })
    (fun n => { n with profile := some (unionProfile n.profile profiles) })
    ns

/-- Link a declared node to its base: to every node of that xmlid that is not marked
    unresolved, or, when there is none, to a placeholder. -/
def inherit (profiles : List String) (xmlid ver base : String) (s : XmlStore P) : XmlStore P :=
  let exts := s.matching xmlid ver
  let bases := s.resolved base ver
  if bases ≠ [] then
    { s with links := exts.foldl (fun es e => mergeAll e.id (bases.map (·.id)) (fun _ => ()) es) s.links }
  else
    let nodes := mergeStubNode profiles base ver s.nodes
    let stubs := nodes.filter fun n => IsStub base ver n
    { nodes
      links := exts.foldl (fun es e => stubs.foldl (fun es b => mergeStub e.id b.id (fun _ => ()) es) es)
        s.links }

end XmlStore

end OdooSemantic
