import OdooSemantic.Graph.XmlIdentity

/-!
# Links between XML nodes

A link runs between node identities, and a statement finds its ends by key. What carries one
to the other is that a node keeps its identity, its key and its mark for good (`face`): the
list of faces only ever grows, at its end and by an identity that nothing refers to yet. On
such stores (`Wired`) a resolved link between two keys is there exactly if it was, or the
statement asks for it and finds both ends (`linked_inherit`).
-/

namespace OdooSemantic

open KeyedStore FlaggedEdges

variable {P : Type}

/-- What no statement changes about a node. -/
def XmlNode.face (n : XmlNode P) : Nat × String × String × Bool :=
  (n.id, n.xmlid, n.odooVersion, n.unresolved)

namespace XmlStore

def faces (s : XmlStore P) : List (Nat × String × String × Bool) := s.nodes.map XmlNode.face

/-- Identities are unique, links run between nodes, and a flagged one ends at a marked node. -/
structure Wired (s : XmlStore P) : Prop where
  unique : (s.faces.map Prod.fst).Nodup
  ends : ∀ a b flag, (a, b, flag) ∈ s.links →
    a ∈ s.faces.map Prod.fst ∧ b ∈ s.faces.map Prod.fst
  flagged : ∀ a b, (a, b, true) ∈ s.links → ∀ x v u, (b, x, v, u) ∈ s.faces → u = true

/-- An unflagged link from a node of the one key to an unmarked node of the other. -/
def LinkedTo (s : XmlStore P) (x b v : String) : Prop :=
  ∃ i u j, (i, x, v, u) ∈ s.faces ∧ (j, b, v, false) ∈ s.faces ∧ (i, j, false) ∈ s.links

theorem wired_empty : ({} : XmlStore P).Wired where
  unique := by simp [faces]
  ends := by simp
  flagged := by simp

/-! ## Faces -/

section Faces

variable {s : XmlStore P} {x v : String}

theorem mem_faces_of_mem_matching {n : XmlNode P} (h : n ∈ s.matching x v) :
    (n.id, x, v, n.unresolved) ∈ s.faces := by
  obtain ⟨hn, rfl, rfl⟩ := mem_matching.mp h
  exact List.mem_map_of_mem hn

theorem exists_mem_matching_of_mem_faces {i : Nat} {u : Bool} (h : (i, x, v, u) ∈ s.faces) :
    ∃ n ∈ s.matching x v, n.id = i ∧ n.unresolved = u := by
  obtain ⟨n, hn, hface⟩ := List.mem_map.mp h
  simp only [XmlNode.face, Prod.mk.injEq] at hface
  obtain ⟨hi, hx, hv, hu⟩ := hface
  exact ⟨n, mem_matching.mpr ⟨hn, hx, hv⟩, hi, hu⟩

theorem matching_ne_nil_iff : s.matching x v ≠ [] ↔ ∃ i u, (i, x, v, u) ∈ s.faces := by
  constructor
  · intro h
    obtain ⟨n, hn⟩ := List.exists_mem_of_ne_nil _ h
    exact ⟨n.id, n.unresolved, mem_faces_of_mem_matching hn⟩
  · intro h
    obtain ⟨i, u, hf⟩ := h
    obtain ⟨n, hn, -⟩ := exists_mem_matching_of_mem_faces hf
    exact List.ne_nil_of_mem hn

theorem mem_resolved_iff {i : Nat} : i ∈ (s.resolved x v).map (·.id) ↔ (i, x, v, false) ∈ s.faces := by
  unfold resolved
  simp only [List.mem_map, List.mem_filter, Bool.not_eq_true']
  constructor
  · intro h
    obtain ⟨n, ⟨hn, hu⟩, rfl⟩ := h
    exact hu ▸ mem_faces_of_mem_matching hn
  · intro h
    obtain ⟨n, hn, hi, hu⟩ := exists_mem_matching_of_mem_faces h
    exact ⟨n, ⟨hn, hu⟩, hi⟩

theorem Wired.face_eq (h : s.Wired) {i : Nat} {x x' v v' : String} {u u' : Bool}
    (hf : (i, x, v, u) ∈ s.faces) (hf' : (i, x', v', u') ∈ s.faces) :
    x = x' ∧ v = v' ∧ u = u' := by
  have heq := List.inj_on_of_nodup_map h.unique hf hf' rfl
  simpa using heq

/-- An identity that is given out is new. -/
theorem freshId_notMem (ns : List (XmlNode P)) : freshId ns ∉ ns.map (·.id) := by
  have hle : ∀ (l : List Nat) (i : Nat), i ∈ l → i ≤ l.foldr max 0 := by
    intro l i hi
    induction l with
    | nil => exact absurd hi (by simp)
    | cons j l ih =>
      cases List.mem_cons.mp hi with
      | inl heq => exact heq ▸ Nat.le_max_left _ _
      | inr hmem => exact Nat.le_trans (ih hmem) (Nat.le_max_right _ _)
  intro hmem
  have := hle _ _ hmem
  unfold freshId at this
  omega

theorem map_fst_faces (s : XmlStore P) : s.faces.map Prod.fst = s.nodes.map (·.id) := by
  rw [faces, List.map_map]
  rfl

/-- A merge keeps the faces, or adds a fresh one at the end. -/
theorem faces_mergeWhere {p : XmlNode P → Prop} [DecidablePred p] {create : Nat → XmlNode P}
    {onMatch : XmlNode P → XmlNode P} (ns : List (XmlNode P))
    (hon : ∀ n, (onMatch n).face = n.face) :
    (mergeWhere p create onMatch ns).map XmlNode.face = ns.map XmlNode.face ∨
      (mergeWhere p create onMatch ns).map XmlNode.face =
        ns.map XmlNode.face ++ [(create (freshId ns)).face] := by
  unfold mergeWhere
  split
  · refine Or.inl ?_
    rw [List.map_map]
    refine List.map_congr_left fun n _ => ?_
    by_cases hp : p n
    · simp [hp, hon]
    · simp [hp]
  · exact Or.inr (by rw [List.map_append, List.map_singleton])

end Faces

/-- The faces of the one store are those of the other, or those and a fresh one. -/
def Extends (s t : XmlStore P) : Prop :=
  t.faces = s.faces ∨ ∃ x v u, t.faces = s.faces ++ [(freshId s.nodes, x, v, u)]

theorem faces_declare (s : XmlStore P) (ps : List String) (x v m : String) (pr : P) :
    (s.declare ps x v m pr).faces = s.faces ∨
      (s.declare ps x v m pr).faces = s.faces ++ [(freshId s.nodes, x, v, false)] := by
  unfold faces declare
  dsimp only
  exact faces_mergeWhere s.nodes (by intro n; rfl)

theorem extends_declare (s : XmlStore P) (ps : List String) (x v m : String) (pr : P) :
    s.Extends (s.declare ps x v m pr) :=
  (faces_declare s ps x v m pr).imp_right fun h => ⟨x, v, false, h⟩

/-- The faces with the placeholder of a missing base. -/
theorem faces_mergeStubNode (s : XmlStore P) (ps : List String) (base v : String) :
    (mergeStubNode ps base v s.nodes).map XmlNode.face = s.faces ∨
      (mergeStubNode ps base v s.nodes).map XmlNode.face =
        s.faces ++ [(freshId s.nodes, base, v, true)] :=
  faces_mergeWhere s.nodes (by intro n; rfl)

section Extends

variable {s t : XmlStore P}

theorem Extends.mem (h : s.Extends t) {f : Nat × String × String × Bool} (hf : f ∈ s.faces) :
    f ∈ t.faces := by
  rcases h with h | ⟨x, v, u, h⟩
  · exact h ▸ hf
  · exact h ▸ List.mem_append_left _ hf

theorem Extends.unique (h : s.Extends t) (hs : s.Wired) : (t.faces.map Prod.fst).Nodup := by
  rcases h with h | ⟨x, v, u, h⟩
  · exact h ▸ hs.unique
  · rw [h, List.map_append, List.map_singleton, List.nodup_append_comm, List.singleton_append,
      List.nodup_cons]
    refine ⟨?_, hs.unique⟩
    rw [map_fst_faces]
    exact freshId_notMem s.nodes

/-- A face with an identity that was there was there. -/
theorem Extends.mem_of_mem (h : s.Extends t) {i : Nat} {x v : String} {u : Bool}
    (hf : (i, x, v, u) ∈ t.faces) (hi : i ∈ s.faces.map Prod.fst) : (i, x, v, u) ∈ s.faces := by
  rcases h with h | ⟨x', v', u', h⟩
  · exact h ▸ hf
  · rw [h] at hf
    refine (List.mem_append.mp hf).resolve_right fun hnew => ?_
    rw [List.mem_singleton, Prod.mk.injEq] at hnew
    rw [hnew.1, map_fst_faces] at hi
    exact freshId_notMem s.nodes hi

end Extends

/-! ## A declaration -/

section Declare

variable {s : XmlStore P}

/-- New faces under old links. -/
theorem Wired.of_extends {t : XmlStore P} (h : s.Wired) (hext : s.Extends t)
    (hlinks : t.links = s.links) : t.Wired where
  unique := hext.unique h
  ends := by
    intro a b flag hl
    rw [hlinks] at hl
    obtain ⟨ha, hb⟩ := h.ends a b flag hl
    have hmem : ∀ i, i ∈ s.faces.map Prod.fst → i ∈ t.faces.map Prod.fst := by
      intro i hi
      obtain ⟨f, hf, rfl⟩ := List.mem_map.mp hi
      exact List.mem_map_of_mem (hext.mem hf)
    exact ⟨hmem a ha, hmem b hb⟩
  flagged := by
    intro a b hl x v u hf
    rw [hlinks] at hl
    exact h.flagged a b hl x v u (hext.mem_of_mem hf (h.ends a b true hl).2)

theorem linkedTo_of_extends {t : XmlStore P} (h : s.Wired) (hext : s.Extends t)
    (hlinks : t.links = s.links) (x b v : String) : t.LinkedTo x b v ↔ s.LinkedTo x b v := by
  unfold LinkedTo
  rw [hlinks]
  constructor
  · intro hl
    obtain ⟨i, u, j, hi, hj, hij⟩ := hl
    obtain ⟨hi', hj'⟩ := h.ends i j false hij
    exact ⟨i, u, j, hext.mem_of_mem hi hi', hext.mem_of_mem hj hj', hij⟩
  · intro hl
    obtain ⟨i, u, j, hi, hj, hij⟩ := hl
    exact ⟨i, u, j, hext.mem hi, hext.mem hj, hij⟩

theorem Wired.declare (h : s.Wired) (ps : List String) (x v m : String) (pr : P) :
    (s.declare ps x v m pr).Wired :=
  h.of_extends (extends_declare s ps x v m pr) rfl

theorem linkedTo_declare (h : s.Wired) (ps : List String) (x' v' m : String) (pr : P)
    (x b v : String) : (s.declare ps x' v' m pr).LinkedTo x b v ↔ s.LinkedTo x b v :=
  linkedTo_of_extends h (extends_declare s ps x' v' m pr) rfl x b v

end Declare

/-! ## A reference -/

section Links

variable {es : Edges Nat Nat Unit} {exts targets : List (XmlNode P)} {a b : Nat} {flag : Bool}

theorem mem_foldl_mergeAll :
    (a, b, flag) ∈ exts.foldl (fun es e => mergeAll e.id (targets.map (·.id)) (fun _ => ()) es) es ↔
      (a, b, flag) ∈ es ∨ (a ∈ exts.map (·.id) ∧ b ∈ targets.map (·.id) ∧ flag = false ∧
        (a, b, true) ∉ es) := by
  induction exts generalizing es with
  | nil => simp
  | cons e exts ih =>
    rw [List.foldl_cons, ih, mem_mergeAll, mem_mergeAll]
    simp only [List.map_cons, List.mem_cons, Bool.true_eq_false, false_and, and_false, or_false]
    by_cases ha : a = e.id
    · subst ha
      tauto
    · simp [ha]

theorem mem_foldl_mergeStub :
    (a, b, flag) ∈ exts.foldl
        (fun es e => targets.foldl (fun es b => mergeStub e.id b.id (fun _ => ()) es) es) es ↔
      (a, b, flag) ∈ es ∨ (a ∈ exts.map (·.id) ∧ b ∈ targets.map (·.id) ∧ flag = true) := by
  have hone : ∀ (i : Nat) (targets : List (XmlNode P)) (es : Edges Nat Nat Unit),
      (a, b, flag) ∈ targets.foldl (fun es b => mergeStub i b.id (fun _ => ()) es) es ↔
        (a, b, flag) ∈ es ∨ (a = i ∧ b ∈ targets.map (·.id) ∧ flag = true) := by
    intro i targets
    induction targets with
    | nil => simp
    | cons n targets ih =>
      intro es
      rw [List.foldl_cons, ih, mem_mergeStub]
      simp only [List.map_cons, List.mem_cons, Prod.mk.injEq]
      tauto
  induction exts generalizing es with
  | nil => simp
  | cons e exts ih =>
    refine Iff.trans ih ?_
    rw [hone]
    simp only [List.map_cons, List.mem_cons]
    tauto

end Links

section Inherit

variable {s : XmlStore P}

theorem ids_matching (s : XmlStore P) {x v : String} {i : Nat} :
    i ∈ (s.matching x v).map (·.id) ↔ ∃ u, (i, x, v, u) ∈ s.faces := by
  rw [List.mem_map]
  constructor
  · intro h
    obtain ⟨n, hn, rfl⟩ := h
    exact ⟨n.unresolved, mem_faces_of_mem_matching hn⟩
  · intro h
    obtain ⟨u, hf⟩ := h
    obtain ⟨n, hn, hi, -⟩ := exists_mem_matching_of_mem_faces hf
    exact ⟨n, hn, hi⟩

/-- The links after a reference that finds something resolved. -/
theorem mem_links_inherit_of_resolved {x' v' b' : String} (h : s.resolved b' v' ≠ [])
    (ps : List String) {a b : Nat} {flag : Bool} :
    (a, b, flag) ∈ (s.inherit ps x' v' b').links ↔ (a, b, flag) ∈ s.links ∨
      ((∃ u, (a, x', v', u) ∈ s.faces) ∧ (b, b', v', false) ∈ s.faces ∧ flag = false ∧
        (a, b, true) ∉ s.links) := by
  unfold XmlStore.inherit
  simp only [ne_eq, h, not_false_eq_true, if_true]
  rw [mem_foldl_mergeAll, ids_matching, mem_resolved_iff]

/-- And after one that does not. -/
theorem mem_links_inherit_of_not_resolved {x' v' b' : String} (h : s.resolved b' v' = [])
    (ps : List String) {a b : Nat} {flag : Bool}
    (hl : (a, b, flag) ∈ (s.inherit ps x' v' b').links) :
    (a, b, flag) ∈ s.links ∨ (flag = true ∧ a ∈ s.faces.map Prod.fst ∧
      ∃ u, (b, b', v', u) ∈ (s.inherit ps x' v' b').faces) := by
  have hfaces : (s.inherit ps x' v' b').faces =
      (mergeStubNode ps b' v' s.nodes).map XmlNode.face := by
    unfold XmlStore.inherit faces
    simp [h]
  rw [hfaces]
  unfold XmlStore.inherit at hl
  simp only [ne_eq, h, not_true_eq_false, if_false] at hl
  rw [mem_foldl_mergeStub] at hl
  refine hl.imp_right fun hnew => ?_
  obtain ⟨ha, hb, hflag⟩ := hnew
  obtain ⟨u, hu⟩ := (ids_matching s).mp ha
  obtain ⟨n, hn, rfl⟩ := List.mem_map.mp hb
  obtain ⟨hmem, hstub⟩ := List.mem_filter.mp hn
  obtain ⟨⟨rfl, rfl⟩, -⟩ := of_decide_eq_true hstub
  exact ⟨hflag, List.mem_map_of_mem hu, n.unresolved, List.mem_map_of_mem hmem⟩

theorem extends_inherit (s : XmlStore P) (ps : List String) (x' v' b' : String) :
    s.Extends (s.inherit ps x' v' b') := by
  unfold XmlStore.inherit
  dsimp only
  split
  · exact Or.inl rfl
  · exact (faces_mergeStubNode s ps b' v').imp_right fun h => ⟨b', v', true, h⟩

/-- Under a key without anything resolved, a reference adds nothing resolved. -/
theorem not_resolved_inherit {x' v' b' : String} (h : s.resolved b' v' = []) (ps : List String)
    {j : Nat} {u : Bool} (hf : (j, b', v', u) ∈ (s.inherit ps x' v' b').faces) : u = true := by
  have hfaces : (s.inherit ps x' v' b').faces =
      (mergeStubNode ps b' v' s.nodes).map XmlNode.face := by
    unfold XmlStore.inherit faces
    simp [h]
  have hold : (j, b', v', u) ∈ s.faces → u = true := by
    intro hf
    cases u with
    | true => rfl
    | false =>
      have hres := mem_resolved_iff.mpr hf
      rw [h] at hres
      exact absurd hres (by simp)
  rw [hfaces] at hf
  rcases faces_mergeStubNode s ps b' v' with hsame | hnew
  · exact hold (hsame ▸ hf)
  · rw [hnew] at hf
    cases List.mem_append.mp hf with
    | inl hf => exact hold hf
    | inr hf =>
      have heq := List.mem_singleton.mp hf
      simp only [Prod.mk.injEq] at heq
      exact heq.2.2.2

theorem Wired.inherit (h : s.Wired) (ps : List String) (x' v' b' : String) :
    (s.inherit ps x' v' b').Wired := by
  have hext := extends_inherit s ps x' v' b'
  have hmem : ∀ i, i ∈ s.faces.map Prod.fst →
      i ∈ (s.inherit ps x' v' b').faces.map Prod.fst := by
    intro i hi
    obtain ⟨f, hf, rfl⟩ := List.mem_map.mp hi
    exact List.mem_map_of_mem (hext.mem hf)
  constructor
  · exact hext.unique h
  · intro a b flag hl
    by_cases hres : s.resolved b' v' = []
    · rcases mem_links_inherit_of_not_resolved hres ps hl with hold | ⟨-, ha, u, hb⟩
      · exact (h.ends a b flag hold).imp (hmem a) (hmem b)
      · exact ⟨hmem a ha, List.mem_map_of_mem hb⟩
    · rcases (mem_links_inherit_of_resolved hres ps).mp hl with hold | ⟨⟨u, ha⟩, hb, -, -⟩
      · exact (h.ends a b flag hold).imp (hmem a) (hmem b)
      · exact ⟨List.mem_map_of_mem (hext.mem ha), List.mem_map_of_mem (hext.mem hb)⟩
  · intro a b hl x v u hf
    have hkeep : (a, b, true) ∈ s.links → u = true := fun hold =>
      h.flagged a b hold x v u (hext.mem_of_mem hf (h.ends a b true hold).2)
    by_cases hres : s.resolved b' v' = []
    · rcases mem_links_inherit_of_not_resolved hres ps hl with hold | ⟨-, -, u', hb⟩
      · exact hkeep hold
      · have hu' := not_resolved_inherit hres ps hb
        have heq := List.inj_on_of_nodup_map (hext.unique h) hf hb rfl
        simp only [Prod.mk.injEq] at heq
        exact heq.2.2.2.trans hu'
    · rcases (mem_links_inherit_of_resolved hres ps).mp hl with hold | ⟨-, -, hflag, -⟩
      · exact hkeep hold
      · exact absurd hflag (by simp)

/-- **The resolved links after a reference.** -/
theorem linkedTo_inherit (h : s.Wired) (ps : List String) (x' v' b' x b v : String) :
    (s.inherit ps x' v' b').LinkedTo x b v ↔ s.LinkedTo x b v ∨
      ((x' = x ∧ b' = b ∧ v' = v) ∧ s.matching x v ≠ [] ∧ s.resolved b v ≠ []) := by
  have hext := extends_inherit s ps x' v' b'
  have hold : s.LinkedTo x b v → (∀ i j, (i, j, false) ∈ s.links →
      (i, j, false) ∈ (s.inherit ps x' v' b').links) → (s.inherit ps x' v' b').LinkedTo x b v := by
    intro hl hmono
    obtain ⟨i, u, j, hi, hj, hij⟩ := hl
    exact ⟨i, u, j, hext.mem hi, hext.mem hj, hmono i j hij⟩
  have hback : ∀ i u j, (i, x, v, u) ∈ (s.inherit ps x' v' b').faces →
      (j, b, v, false) ∈ (s.inherit ps x' v' b').faces → (i, j, false) ∈ s.links →
      s.LinkedTo x b v := by
    intro i u j hi hj hij
    obtain ⟨hi', hj'⟩ := h.ends i j false hij
    exact ⟨i, u, j, hext.mem_of_mem hi hi', hext.mem_of_mem hj hj', hij⟩
  by_cases hres : s.resolved b' v' = []
  · have hlinks : ∀ i j, (i, j, false) ∈ s.links →
        (i, j, false) ∈ (s.inherit ps x' v' b').links := by
      intro i j hij
      unfold XmlStore.inherit
      simp only [ne_eq, hres, not_true_eq_false, if_false]
      exact mem_foldl_mergeStub.mpr (Or.inl hij)
    constructor
    · intro hl
      obtain ⟨i, u, j, hi, hj, hij⟩ := hl
      rcases mem_links_inherit_of_not_resolved hres ps hij with hij | ⟨hflag, -⟩
      · exact Or.inl (hback i u j hi hj hij)
      · exact absurd hflag (by simp)
    · intro hcase
      rcases hcase with hl | ⟨⟨rfl, rfl, rfl⟩, -, hne⟩
      · exact hold hl hlinks
      · exact absurd hres hne
  · constructor
    · intro hl
      obtain ⟨i, u, j, hi, hj, hij⟩ := hl
      rcases (mem_links_inherit_of_resolved hres ps).mp hij with hij | ⟨⟨u', hi'⟩, hj', -, -⟩
      · exact Or.inl (hback i u j hi hj hij)
      · have hunique := hext.unique h
        have hie := List.inj_on_of_nodup_map hunique hi (hext.mem hi') rfl
        have hje := List.inj_on_of_nodup_map hunique hj (hext.mem hj') rfl
        simp only [Prod.mk.injEq] at hie hje
        obtain ⟨-, rfl, rfl, -⟩ := hie
        obtain ⟨-, rfl, -, -⟩ := hje
        exact Or.inr ⟨⟨rfl, rfl, rfl⟩, matching_ne_nil_iff.mpr ⟨i, u', hi'⟩, hres⟩
    · intro hcase
      rcases hcase with hl | ⟨⟨rfl, rfl, rfl⟩, hne, -⟩
      · exact hold hl fun i j hij => (mem_links_inherit_of_resolved hres ps).mpr (Or.inl hij)
      · obtain ⟨i, u, hi⟩ := matching_ne_nil_iff.mp hne
        obtain ⟨n, hn⟩ := List.exists_mem_of_ne_nil _ hres
        have hj : (n.id, b', v', false) ∈ s.faces := mem_resolved_iff.mp (List.mem_map_of_mem hn)
        refine ⟨i, u, n.id, hext.mem hi, hext.mem hj, ?_⟩
        refine (mem_links_inherit_of_resolved hres ps).mpr (Or.inr ⟨⟨u, hi⟩, hj, rfl, ?_⟩)
        intro hflag
        exact absurd (h.flagged i n.id hflag b' v' false hj) (by simp)

end Inherit

/-! ## A run of writes -/

section Run

variable {s : XmlStore P} {x b v : String}

theorem Wired.write (h : s.Wired) (w : XmlWrite P) : (s.write w).Wired :=
  write_keeps (·.Wired) (fun _ h => h.declare) (fun _ h => h.inherit) h w

theorem Wired.writeAll (h : s.Wired) (ws : List (XmlWrite P)) : (writeAll ws s).Wired := by
  induction ws generalizing s with
  | nil => exact h
  | cons w ws ih => exact ih (h.write w)

theorem LinkedTo.write (hl : s.LinkedTo x b v) (h : s.Wired) (w : XmlWrite P) :
    (s.write w).LinkedTo x b v := by
  have hdeclared := (linkedTo_declare h w.profiles w.xmlid w.odooVersion w.module w.props x b v).mpr hl
  unfold XmlStore.write
  split
  · exact (linkedTo_inherit (h.declare _ _ _ _ _) _ _ _ _ x b v).mpr (Or.inl hdeclared)
  · exact hdeclared

theorem LinkedTo.writeAll (hl : s.LinkedTo x b v) (h : s.Wired) (ws : List (XmlWrite P)) :
    (writeAll ws s).LinkedTo x b v := by
  induction ws generalizing s with
  | nil => exact hl
  | cons w ws ih => exact ih (hl.write h w) (h.write w)

/-- There are nodes, and all of them are marked. -/
def Shut (s : XmlStore P) (x v : String) : Prop := s.matching x v ≠ [] ∧ s.resolved x v = []

theorem shut_iff : s.Shut x v ↔
    s.matching x v ≠ [] ∧ ∀ n ∈ s.matching x v, n.unresolved = true := by
  unfold Shut resolved
  rw [List.filter_eq_nil_iff]
  simp

theorem Undeclared.shut (h : s.Undeclared x v) (hm : s.Marked x v) : s.Shut x v := by
  obtain ⟨n, hn, -⟩ := hm
  exact shut_iff.mpr ⟨List.ne_nil_of_mem hn, fun n hn => (h n hn).1⟩

theorem Shut.declare (h : s.Shut x v) (ps : List String) (x' v' m : String) (pr : P) :
    (s.declare ps x' v' m pr).Shut x v := by
  rw [shut_iff] at h ⊢
  by_cases hk : x' = x ∧ v' = v
  · obtain ⟨rfl, rfl⟩ := hk
    rw [matching_declare_self, if_neg h.1]
    refine ⟨fun hnil => h.1 (List.map_eq_nil_iff.mp hnil), fun n hn => ?_⟩
    obtain ⟨n', hn', rfl⟩ := List.mem_map.mp hn
    exact h.2 n' hn'
  · rw [matching_declare_ne hk]
    exact h

theorem Shut.inherit (h : s.Shut x v) (ps : List String) (x' v' b' : String) :
    (s.inherit ps x' v' b').Shut x v := by
  by_cases hk : b' = x ∧ v' = v
  · obtain ⟨rfl, rfl⟩ := hk
    obtain ⟨n, hn⟩ := List.exists_mem_of_ne_nil _ h.1
    obtain ⟨n', hn', -⟩ := exists_mem_inherit hn ps x' v' b'
    refine shut_iff.mpr ⟨List.ne_nil_of_mem hn', fun n hn => ?_⟩
    exact not_resolved_inherit h.2 ps (mem_faces_of_mem_matching hn)
  · unfold Shut resolved
    rw [matching_inherit_ne hk]
    exact h

theorem Shut.writeAll (h : s.Shut x v) (ws : List (XmlWrite P)) : (writeAll ws s).Shut x v := by
  induction ws generalizing s with
  | nil => exact h
  | cons w ws ih => exact ih (write_keeps (·.Shut x v) (fun _ h => h.declare) (fun _ h => h.inherit) h w)

theorem Shut.not_linkedTo (h : s.Shut b v) : ¬s.LinkedTo x b v := by
  rintro ⟨i, u, j, -, hj, -⟩
  have hres := mem_resolved_iff.mpr hj
  rw [h.2] at hres
  exact absurd hres (by simp)

/-- **A reference is resolved exactly where the key has been declared before.** -/
theorem linkedTo_writeAll {ws us vs : List (XmlWrite P)} {w : XmlWrite P}
    (hsplit : ws = us ++ w :: vs) (hfirst : DeclaredFirstAt ws b w.odooVersion)
    (hb : w.base = some b) :
    (XmlStore.writeAll ws ({} : XmlStore P)).LinkedTo w.xmlid b w.odooVersion := by
  subst hsplit
  have hwired : (XmlStore.writeAll us ({} : XmlStore P)).Wired := wired_empty.writeAll us
  rw [writeAll_append]
  refine LinkedTo.writeAll ?_ (hwired.write w) vs
  unfold XmlStore.write
  rw [hb]
  refine (linkedTo_inherit (hwired.declare _ _ _ _ _) _ _ _ _ _ _ _).mpr (Or.inr ⟨⟨rfl, rfl, rfl⟩, ?_⟩)
  constructor
  · rw [matching_declare_self]
    split
    · simp
    · rename_i hne
      exact fun hnil => hne (List.map_eq_nil_iff.mp hnil)
  · have hclean : ((XmlStore.writeAll us ({} : XmlStore P)).declare w.profiles w.xmlid w.odooVersion
        w.module w.props).Clean b w.odooVersion := by
      by_cases hdec : ∃ d ∈ us, d.Declares b w.odooVersion
      · refine Clean.declare (clean_of_declaredFirstAt (fun as u bs has href => ?_) hdec) _ _ _ _ _
        exact hfirst as u (bs ++ w :: vs) (by simp [has]) href
      · have hnone : ∀ u ∈ us, ¬ u.Declares b w.odooVersion := fun u hu h => hdec ⟨u, hu, h⟩
        obtain ⟨d, hd, hdecl⟩ := hfirst us w vs rfl ⟨hb, rfl⟩
        cases List.mem_append.mp hd with
        | inl hd => exact absurd hdecl (hnone d hd)
        | inr hd =>
          obtain rfl := List.mem_singleton.mp hd
          obtain ⟨rfl, -⟩ := hdecl
          exact clean_declare_of_empty (matching_of_declaredFirstAt hfirst hnone) _ _ _
    obtain ⟨n, hn, hu⟩ := hclean
    unfold resolved
    rw [hn]
    simp [hu]

/-- … and where it has not, it is not. -/
theorem not_linkedTo_writeAll {us vs : List (XmlWrite P)} {w : XmlWrite P}
    (hb : w.base = some b) (hnone : ∀ d ∈ us ++ [w], ¬ d.Declares b w.odooVersion) :
    ¬(XmlStore.writeAll (us ++ w :: vs) ({} : XmlStore P)).LinkedTo x b w.odooVersion := by
  have hundeclared : (XmlStore.writeAll us ({} : XmlStore P)).Undeclared b w.odooVersion := by
    refine Undeclared.writeAll (fun n hn => ?_) fun u hu => hnone u (List.mem_append_left _ hu)
    simp [matching] at hn
  have hshut := hundeclared.write_ref (hnone w (by simp)) ⟨hb, rfl⟩
  rw [writeAll_append]
  exact ((hshut.1.shut hshut.2).writeAll vs).not_linkedTo

end Run

end XmlStore

end OdooSemantic
