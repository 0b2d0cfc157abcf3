import OdooSemantic.Graph.XmlStore

/-!
# Identity of declared XML nodes

What a sequence of declarations and references does to the nodes of one `(xmlid, version)`.
Three states of a key matter:

* *undeclared* — nothing there, or only placeholders;
* *settled* — one node, declared, not marked unresolved;
* *spoiled* — a declared node that still carries the placeholder's mark.

A declaration takes an empty key to *settled* and a key with a placeholder to *spoiled*, and
nothing leads out of *spoiled*: no statement clears the mark. A reference plants a placeholder
in an undeclared key and leaves a settled one alone. So the one thing that decides between the
last two is whether the key's first reference came before its first declaration
(`wellIdentified_iff`).
-/

namespace OdooSemantic

open KeyedStore FlaggedEdges

/-- One turn of a write loop: a declaration, and the base it names, if any. -/
structure XmlWrite (P : Type) where
  profiles : List String
  xmlid : String
  odooVersion : String
  module : String
  props : P
  base : Option String

namespace XmlWrite

variable {P : Type}

def Declares (w : XmlWrite P) (xmlid ver : String) : Prop := w.xmlid = xmlid ∧ w.odooVersion = ver

def References (w : XmlWrite P) (xmlid ver : String) : Prop :=
  w.base = some xmlid ∧ w.odooVersion = ver

instance (w : XmlWrite P) (xmlid ver : String) : Decidable (w.Declares xmlid ver) :=
  inferInstanceAs (Decidable (_ ∧ _))

end XmlWrite

namespace XmlStore

variable {P : Type}

def write (s : XmlStore P) (w : XmlWrite P) : XmlStore P :=
  match w.base with
  | some b =>
      (s.declare w.profiles w.xmlid w.odooVersion w.module w.props).inherit w.profiles w.xmlid
        w.odooVersion b
  | none => s.declare w.profiles w.xmlid w.odooVersion w.module w.props

def writeAll (ws : List (XmlWrite P)) (s : XmlStore P) : XmlStore P := ws.foldl write s

theorem writeAll_append (us ws : List (XmlWrite P)) (s : XmlStore P) :
    writeAll (us ++ ws) s = writeAll ws (writeAll us s) := List.foldl_append

/-- At most one node under each declared key, and no written node marked unresolved. -/
structure WellIdentified (declared : String → String → Prop) (s : XmlStore P) : Prop where
  unique : ∀ x v, declared x v → (s.matching x v).length ≤ 1
  unmarked : ∀ n ∈ s.nodes, n.props.isSome → n.unresolved = false

/-- No key is declared for the first time after something has referenced it: a key that is
    declared at all is declared by the time its first reference is written. -/
def DeclaredFirst (ws : List (XmlWrite P)) : Prop :=
  ∀ us w vs, ws = us ++ w :: vs → ∀ b, w.base = some b →
    (∃ d ∈ ws, d.Declares b w.odooVersion) → ∃ d ∈ us ++ [w], d.Declares b w.odooVersion

/-! ## What the statements do to the nodes under one key -/

theorem mem_matching {s : XmlStore P} {x v : String} {n : XmlNode P} :
    n ∈ s.matching x v ↔ n ∈ s.nodes ∧ n.At x v := by simp [matching]

/-- A merge, read through a key: `onMatch` never moves a node to another key. -/
theorem filter_mergeWhere {p : XmlNode P → Prop} [DecidablePred p] {create : Nat → XmlNode P}
    {onMatch : XmlNode P → XmlNode P} {x v : String} (ns : List (XmlNode P))
    (hq : ∀ n, (onMatch n).At x v ↔ n.At x v) :
    (mergeWhere p create onMatch ns).filter (fun n => n.At x v) =
      if ∃ n ∈ ns, p n then
        (ns.filter fun n => n.At x v).map fun n => if p n then onMatch n else n
      else (ns.filter fun n => n.At x v) ++ [create (freshId ns)].filter fun n => n.At x v := by
  unfold mergeWhere
  split
  · have hkey : ((fun n => decide (n.At x v)) ∘ fun n => if p n then onMatch n else n) =
        fun n : XmlNode P => decide (n.At x v) := by
      funext n
      by_cases hp : p n <;> simp [hp, hq]
    rw [List.filter_map, hkey]
  · rw [List.filter_append]

/-- A declaration does not touch the nodes of another key. -/
theorem matching_declare_ne {s : XmlStore P} {ps : List String} {x v x' v' m : String} {pr : P}
    (h : ¬ (x' = x ∧ v' = v)) :
    (s.declare ps x' v' m pr).matching x v = s.matching x v := by
  unfold matching declare
  dsimp only
  rw [filter_mergeWhere _ (by intro n; rfl)]
  split
  · refine (List.map_congr_left fun n hn => ?_).trans (List.map_id _)
    obtain ⟨_, hx, hv⟩ := mem_matching.mp hn
    rw [if_neg]
    · rfl
    · rintro ⟨hx', hv'⟩
      exact h ⟨hx'.symm.trans hx, hv'.symm.trans hv⟩
  · have : ¬ XmlNode.At (P := P)
        { id := freshId s.nodes, xmlid := x', odooVersion := v', module := m,
          unresolved := false, profile := some ps, props := some pr } x v := h
    simp [this]

/-- A declaration of the key: a fresh unmarked node, or new properties on every node of it. -/
theorem matching_declare_self (s : XmlStore P) (ps : List String) (x v m : String) (pr : P) :
    (s.declare ps x v m pr).matching x v =
      if s.matching x v = [] then
        [{ id := freshId s.nodes, xmlid := x, odooVersion := v, module := m,
           unresolved := false, profile := some ps, props := some pr }]
      else (s.matching x v).map fun n =>
        { n with module := m, profile := some (unionProfile n.profile ps), props := some pr } := by
  unfold matching declare
  dsimp only
  rw [filter_mergeWhere _ (by intro n; rfl)]
  by_cases he : ∃ n ∈ s.nodes, n.At x v
  · obtain ⟨n, hn, hat⟩ := he
    have hne : s.nodes.filter (fun n => n.At x v) ≠ [] :=
      List.ne_nil_of_mem (mem_matching.mpr ⟨hn, hat⟩)
    rw [if_pos ⟨n, hn, hat⟩, if_neg hne]
    refine List.map_congr_left fun n hn => ?_
    rw [if_pos (mem_matching.mp hn).2]
  · have hnil : s.nodes.filter (fun n => n.At x v) = [] := by
      rw [List.filter_eq_nil_iff]
      intro n hn hat
      exact he ⟨n, hn, by simpa using hat⟩
    rw [if_neg he, if_pos hnil, hnil]
    simp [XmlNode.At]

/-- A reference to another key does not touch the nodes of this one. -/
theorem matching_inherit_ne {s : XmlStore P} {ps : List String} {x v x' v' b : String}
    (h : ¬ (b = x ∧ v' = v)) : (s.inherit ps x' v' b).matching x v = s.matching x v := by
  unfold inherit
  dsimp only
  split
  · rfl
  · unfold matching mergeStubNode
    dsimp only
    rw [filter_mergeWhere _ (by intro n; rfl)]
    split
    · refine (List.map_congr_left fun n hn => ?_).trans (List.map_id _)
      obtain ⟨_, hx, hv⟩ := mem_matching.mp hn
      rw [if_neg]
      · rfl
      · rintro ⟨⟨hx', hv'⟩, _⟩
        exact h ⟨hx'.symm.trans hx, hv'.symm.trans hv⟩
    · have : ¬ XmlNode.At (P := P)
          { id := freshId s.nodes, xmlid := b, odooVersion := v', module := unresolvedModule,
            unresolved := true, profile := some ps, props := none } x v := h
      simp [this]

/-- A reference to a key with an unmarked node leaves the nodes alone. -/
theorem nodes_inherit_of_resolved {s : XmlStore P} {ps : List String} {x' v b : String}
    (h : s.resolved b v ≠ []) : (s.inherit ps x' v b).nodes = s.nodes := by
  unfold inherit
  simp [h]

/-! ## The states of a key -/

/-- Nothing but placeholders there. -/
def Undeclared (s : XmlStore P) (x v : String) : Prop :=
  ∀ n ∈ s.matching x v, n.unresolved = true ∧ n.props = none

/-- One node there, and it is not marked. -/
def Clean (s : XmlStore P) (x v : String) : Prop :=
  ∃ n, s.matching x v = [n] ∧ n.unresolved = false

/-- A marked node there. -/
def Marked (s : XmlStore P) (x v : String) : Prop := ∃ n ∈ s.matching x v, n.unresolved = true

/-- A marked node there that a declaration has written. -/
def Spoiled (s : XmlStore P) (x v : String) : Prop :=
  ∃ n ∈ s.matching x v, n.unresolved = true ∧ n.props.isSome

section Steps

variable {s : XmlStore P} {x v : String}

theorem clean_declare_of_empty (h : s.matching x v = []) (ps : List String) (m : String) (pr : P) :
    (s.declare ps x v m pr).Clean x v := by
  exact ⟨_, (matching_declare_self s ps x v m pr).trans (if_pos h), rfl⟩

theorem Clean.declare (h : s.Clean x v) (ps : List String) (x' v' m : String) (pr : P) :
    (s.declare ps x' v' m pr).Clean x v := by
  obtain ⟨n, hn, hu⟩ := h
  by_cases hk : x' = x ∧ v' = v
  · obtain ⟨rfl, rfl⟩ := hk
    refine ⟨{ n with module := m, profile := some (unionProfile n.profile ps), props := some pr },
      ?_, hu⟩
    rw [matching_declare_self, if_neg (by simp [hn]), hn, List.map_singleton]
  · exact ⟨n, by rw [matching_declare_ne hk, hn], hu⟩

theorem Clean.inherit (h : s.Clean x v) (ps : List String) (x' v' b : String) :
    (s.inherit ps x' v' b).Clean x v := by
  by_cases hk : b = x ∧ v' = v
  · obtain ⟨rfl, rfl⟩ := hk
    obtain ⟨n, hn, hu⟩ := h
    have hres : s.resolved b v' ≠ [] := by simp [resolved, hn, hu]
    refine ⟨n, ?_, hu⟩
    unfold matching
    rw [nodes_inherit_of_resolved hres]
    exact hn
  · obtain ⟨n, hn, hu⟩ := h
    exact ⟨n, by rw [matching_inherit_ne hk, hn], hu⟩

/-- A declaration keeps whatever mark it finds. -/
theorem Marked.declare_self (h : s.Marked x v) (ps : List String) (m : String) (pr : P) :
    (s.declare ps x v m pr).Spoiled x v := by
  obtain ⟨n, hn, hu⟩ := h
  refine ⟨{ n with module := m, profile := some (unionProfile n.profile ps), props := some pr },
    ?_, hu, rfl⟩
  rw [matching_declare_self, if_neg (List.ne_nil_of_mem hn)]
  exact List.mem_map_of_mem hn

theorem Spoiled.marked (h : s.Spoiled x v) : s.Marked x v :=
  let ⟨n, hn, hu, _⟩ := h
  ⟨n, hn, hu⟩

theorem Marked.declare (h : s.Marked x v) (ps : List String) (x' v' m : String) (pr : P) :
    (s.declare ps x' v' m pr).Marked x v := by
  by_cases hk : x' = x ∧ v' = v
  · obtain ⟨rfl, rfl⟩ := hk
    exact (h.declare_self ps m pr).marked
  · obtain ⟨n, hn, hu⟩ := h
    exact ⟨n, by rwa [matching_declare_ne hk], hu⟩

theorem Spoiled.declare (h : s.Spoiled x v) (ps : List String) (x' v' m : String) (pr : P) :
    (s.declare ps x' v' m pr).Spoiled x v := by
  by_cases hk : x' = x ∧ v' = v
  · obtain ⟨rfl, rfl⟩ := hk
    exact h.marked.declare_self ps m pr
  · obtain ⟨n, hn, hu, hp⟩ := h
    exact ⟨n, by rwa [matching_declare_ne hk], hu, hp⟩

/-- A reference changes nothing of a node but its profile array. -/
theorem exists_mem_inherit {n : XmlNode P} (hn : n ∈ s.matching x v) (ps : List String)
    (x' v' b : String) : ∃ n' ∈ (s.inherit ps x' v' b).matching x v,
      n'.unresolved = n.unresolved ∧ n'.props = n.props := by
  obtain ⟨hmem, hat⟩ := mem_matching.mp hn
  unfold XmlStore.inherit
  dsimp only
  split
  · exact ⟨n, hn, rfl, rfl⟩
  · unfold mergeStubNode mergeWhere
    split
    · refine ⟨_, mem_matching.mpr ⟨List.mem_map_of_mem hmem, ?_⟩, ?_⟩
      · split <;> exact hat
      · split <;> exact ⟨rfl, rfl⟩
    · exact ⟨n, mem_matching.mpr ⟨List.mem_append_left _ hmem, hat⟩, rfl, rfl⟩

theorem Marked.inherit (h : s.Marked x v) (ps : List String) (x' v' b : String) :
    (s.inherit ps x' v' b).Marked x v := by
  obtain ⟨n, hn, hu⟩ := h
  obtain ⟨n', hn', hu', _⟩ := exists_mem_inherit hn ps x' v' b
  exact ⟨n', hn', hu'.trans hu⟩

theorem Spoiled.inherit (h : s.Spoiled x v) (ps : List String) (x' v' b : String) :
    (s.inherit ps x' v' b).Spoiled x v := by
  obtain ⟨n, hn, hu, hp⟩ := h
  obtain ⟨n', hn', hu', hp'⟩ := exists_mem_inherit hn ps x' v' b
  exact ⟨n', hn', hu'.trans hu, by rw [hp']; exact hp⟩

/-- What a reference plants in, or leaves at, an undeclared key. -/
theorem Undeclared.inherit_self (h : s.Undeclared x v) (ps : List String) (x' : String) :
    (s.inherit ps x' v x).Undeclared x v ∧ (s.inherit ps x' v x).Marked x v := by
  have hres : s.resolved x v = [] := by
    unfold resolved
    rw [List.filter_eq_nil_iff]
    intro n hn
    simp [(h n hn).1]
  have hm : (s.inherit ps x' v x).matching x v =
      (mergeStubNode ps x v s.nodes).filter fun n => n.At x v := by
    unfold XmlStore.inherit matching
    simp [hres]
  unfold Undeclared Marked
  rw [hm]
  unfold mergeStubNode
  rw [filter_mergeWhere _ (by intro n; rfl)]
  split
  · rename_i hex
    obtain ⟨n, hn, hat, hmod⟩ := hex
    constructor
    · intro n' hn'
      obtain ⟨n₀, hn₀, rfl⟩ := List.mem_map.mp hn'
      split <;> exact h n₀ hn₀
    · refine ⟨_, List.mem_map_of_mem (mem_matching.mpr ⟨hn, hat⟩), ?_⟩
      split <;> exact (h n (mem_matching.mpr ⟨hn, hat⟩)).1
  · constructor
    · intro n hn
      rcases List.mem_append.mp hn with hn | hn
      · exact h n hn
      · obtain ⟨hn, _⟩ := List.mem_filter.mp hn
        obtain rfl := List.mem_singleton.mp hn
        exact ⟨rfl, rfl⟩
    · exact ⟨_, List.mem_append_right _ (List.mem_filter.mpr ⟨List.mem_singleton_self _,
        by simp [XmlNode.At]⟩), rfl⟩

end Steps

/-! ## One write -/

section Write

variable {s : XmlStore P} {x v : String}

/-- A property of a key that declarations and references keep is kept by a write. -/
theorem write_keeps (Q : XmlStore P → Prop) (hd : ∀ s, Q s → ∀ ps x' v' m pr,
      Q (s.declare ps x' v' m pr)) (hi : ∀ s, Q s → ∀ ps x' v' b, Q (s.inherit ps x' v' b))
    (h : Q s) (w : XmlWrite P) : Q (s.write w) := by
  unfold write
  split
  · exact hi _ (hd _ h _ _ _ _ _) _ _ _ _
  · exact hd _ h _ _ _ _ _

theorem Clean.write (h : s.Clean x v) (w : XmlWrite P) : (s.write w).Clean x v :=
  write_keeps (·.Clean x v) (fun _ h => h.declare) (fun _ h => h.inherit) h w

theorem Marked.write (h : s.Marked x v) (w : XmlWrite P) : (s.write w).Marked x v :=
  write_keeps (·.Marked x v) (fun _ h => h.declare) (fun _ h => h.inherit) h w

theorem Spoiled.write (h : s.Spoiled x v) (w : XmlWrite P) : (s.write w).Spoiled x v :=
  write_keeps (·.Spoiled x v) (fun _ h => h.declare) (fun _ h => h.inherit) h w

theorem clean_write_of_empty (h : s.matching x v = []) {w : XmlWrite P} (hw : w.Declares x v) :
    (s.write w).Clean x v := by
  obtain ⟨rfl, rfl⟩ := hw
  have hc : (s.declare w.profiles w.xmlid w.odooVersion w.module w.props).Clean w.xmlid
    w.odooVersion := clean_declare_of_empty h _ _ _
  unfold XmlStore.write
  split
  · exact hc.inherit _ _ _ _
  · exact hc

theorem Marked.write_self (h : s.Marked x v) {w : XmlWrite P} (hw : w.Declares x v) :
    (s.write w).Spoiled x v := by
  obtain ⟨rfl, rfl⟩ := hw
  have hc := h.declare_self w.profiles w.module w.props
  unfold XmlStore.write
  split
  · exact hc.inherit _ _ _ _
  · exact hc

/-- A write that neither declares nor references the key. -/
theorem matching_write {w : XmlWrite P} (hd : ¬ w.Declares x v) (hr : ¬ w.References x v) :
    (s.write w).matching x v = s.matching x v := by
  unfold XmlStore.write
  split
  · rename_i b hb
    rw [matching_inherit_ne fun h => hr ⟨by rw [hb, h.1], h.2⟩, matching_declare_ne hd]
  · rw [matching_declare_ne hd]

/-- A reference to an undeclared key by a write that does not declare it. -/
theorem Undeclared.write_ref (h : s.Undeclared x v) {w : XmlWrite P} (hd : ¬ w.Declares x v)
    (hr : w.References x v) :
    (s.write w).Undeclared x v ∧ (s.write w).Marked x v := by
  obtain ⟨hb, rfl⟩ := hr
  have h' : (s.declare w.profiles w.xmlid w.odooVersion w.module w.props).Undeclared x
      w.odooVersion := by
    unfold Undeclared
    rw [matching_declare_ne hd]
    exact h
  unfold XmlStore.write
  rw [hb]
  exact h'.inherit_self _ _

theorem Undeclared.write (h : s.Undeclared x v) {w : XmlWrite P} (hd : ¬ w.Declares x v) :
    (s.write w).Undeclared x v := by
  by_cases hr : w.References x v
  · exact (h.write_ref hd hr).1
  · unfold Undeclared
    rw [matching_write hd hr]
    exact h

end Write

/-! ## A run of writes -/

section Run

variable {s : XmlStore P} {x v : String} {ws : List (XmlWrite P)}

theorem Clean.writeAll (h : s.Clean x v) (ws : List (XmlWrite P)) : (writeAll ws s).Clean x v := by
  induction ws generalizing s with
  | nil => exact h
  | cons w ws ih => exact ih (h.write w)

theorem Spoiled.writeAll (h : s.Spoiled x v) (ws : List (XmlWrite P)) :
    (writeAll ws s).Spoiled x v := by
  induction ws generalizing s with
  | nil => exact h
  | cons w ws ih => exact ih (h.write w)

theorem Undeclared.writeAll (h : s.Undeclared x v) (hws : ∀ w ∈ ws, ¬ w.Declares x v) :
    (writeAll ws s).Undeclared x v := by
  induction ws generalizing s with
  | nil => exact h
  | cons w ws ih =>
    exact ih (h.write (hws w List.mem_cons_self)) fun u hu => hws u (List.mem_cons_of_mem _ hu)

theorem matching_writeAll_empty (h : s.matching x v = [])
    (hws : ∀ w ∈ ws, ¬ w.Declares x v ∧ ¬ w.References x v) :
    (writeAll ws s).matching x v = [] := by
  induction ws generalizing s with
  | nil => exact h
  | cons w ws ih =>
    obtain ⟨hd, hr⟩ := hws w List.mem_cons_self
    exact ih ((matching_write hd hr).trans h) fun u hu => hws u (List.mem_cons_of_mem _ hu)

/-- A mark that is there when the key is declared stays on the declared node. -/
theorem Marked.writeAll_of_declares (h : s.Marked x v) (hd : ∃ d ∈ ws, d.Declares x v) :
    (writeAll ws s).Spoiled x v := by
  induction ws generalizing s with
  | nil => simp at hd
  | cons w ws ih =>
    by_cases hw : w.Declares x v
    · exact (h.write_self hw).writeAll ws
    · obtain ⟨d, hmem, hdec⟩ := hd
      have hne : d ≠ w := fun he => hw (he ▸ hdec)
      exact ih (h.write w) ⟨d, (List.mem_cons.mp hmem).resolve_left hne, hdec⟩

/-- The key is declared by the time it is referenced. -/
def DeclaredFirstAt (ws : List (XmlWrite P)) (x v : String) : Prop :=
  ∀ us w vs, ws = us ++ w :: vs → w.References x v → ∃ d ∈ us ++ [w], d.Declares x v

/-- A write under a key that none in front of it declares, nor references. -/
theorem matching_of_declaredFirstAt {us vs : List (XmlWrite P)} {d : XmlWrite P}
    (h : DeclaredFirstAt (us ++ d :: vs) x v) (hnone : ∀ u ∈ us, ¬ u.Declares x v) :
    (writeAll us ({} : XmlStore P)).matching x v = [] := by
  refine matching_writeAll_empty rfl fun u hu => ⟨hnone u hu, fun href => ?_⟩
  obtain ⟨as, bs, rfl⟩ := List.append_of_mem hu
  obtain ⟨e, he, hedec⟩ := h as u (bs ++ d :: vs) (by simp) href
  refine hnone e ?_ hedec
  simp only [List.mem_append, List.mem_singleton] at he
  simp only [List.mem_append, List.mem_cons]
  tauto

/-- **Declared before referenced, a key ends with one unmarked node.** -/
theorem clean_of_declaredFirstAt (h : DeclaredFirstAt ws x v) (hd : ∃ d ∈ ws, d.Declares x v) :
    (writeAll ws ({} : XmlStore P)).Clean x v := by
  have hfind : (ws.find? fun d => d.Declares x v).isSome := by
    obtain ⟨d, hmem, hdec⟩ := hd
    exact List.find?_isSome.mpr ⟨d, hmem, by simpa using hdec⟩
  obtain ⟨d, hfound⟩ := Option.isSome_iff_exists.mp hfind
  obtain ⟨hdec, us, vs, rfl, hus⟩ := List.find?_eq_some_iff_append.mp hfound
  replace hdec : d.Declares x v := by simpa using hdec
  have hnone : ∀ u ∈ us, ¬ u.Declares x v := fun u hu => by simpa using hus u hu
  rw [writeAll_append]
  exact (clean_write_of_empty (matching_of_declaredFirstAt h hnone) hdec).writeAll vs

theorem clean_of_declaredFirst (h : DeclaredFirst ws) (hd : ∃ d ∈ ws, d.Declares x v) :
    (writeAll ws ({} : XmlStore P)).Clean x v := by
  refine clean_of_declaredFirstAt (fun us w vs hsplit href => ?_) hd
  obtain ⟨hb, rfl⟩ := href
  exact h us w vs hsplit x hb hd

/-- **Identity holds exactly for runs that declare before they reference.** -/
theorem wellIdentified_iff :
    WellIdentified (fun x v => ∃ d ∈ ws, d.Declares x v) (writeAll ws ({} : XmlStore P)) ↔
      DeclaredFirst ws := by
  constructor
  · intro hwell us w vs hsplit b hb hd
    by_contra hno
    subst hsplit
    have hpre : ∀ u ∈ us ++ [w], ¬ u.Declares b w.odooVersion := fun u hu hdec =>
      hno ⟨u, hu, hdec⟩
    have hundecl : (writeAll us ({} : XmlStore P)).Undeclared b w.odooVersion := by
      refine Undeclared.writeAll ?_ fun u hu => hpre u (List.mem_append_left _ hu)
      intro n hn
      simp [matching] at hn
    have hmark := (hundecl.write_ref (hpre w (by simp)) ⟨hb, rfl⟩).2
    have hlater : ∃ d ∈ vs, d.Declares b w.odooVersion := by
      obtain ⟨d, hmem, hdec⟩ := hd
      rw [List.append_cons, List.mem_append] at hmem
      exact ⟨d, hmem.resolve_left fun hm => hpre d hm hdec, hdec⟩
    obtain ⟨n, hn, hu, hp⟩ := hmark.writeAll_of_declares hlater
    have hmem : n ∈ (writeAll (us ++ w :: vs) ({} : XmlStore P)).nodes := by
      rw [writeAll_append]
      exact (mem_matching.mp hn).1
    exact Bool.noConfusion (hu.symm.trans (hwell.unmarked n hmem hp))
  · intro h
    constructor
    · intro x v hd
      obtain ⟨n, hn, _⟩ := clean_of_declaredFirst h hd
      simp [hn]
    · intro n hn hp
      have hmem : n ∈ (writeAll ws ({} : XmlStore P)).matching n.xmlid n.odooVersion :=
        mem_matching.mpr ⟨hn, rfl, rfl⟩
      by_cases hd : ∃ d ∈ ws, d.Declares n.xmlid n.odooVersion
      · obtain ⟨n', hn', hu'⟩ := clean_of_declaredFirst h hd
        rw [hn', List.mem_singleton] at hmem
        exact hmem ▸ hu'
      · have hundecl : (writeAll ws ({} : XmlStore P)).Undeclared n.xmlid n.odooVersion := by
          refine Undeclared.writeAll ?_ fun u hu hdec => hd ⟨u, hu, hdec⟩
          intro n hn
          simp [matching] at hn
        rw [(hundecl n hmem).2] at hp
        exact absurd hp (by simp)

end Run

end XmlStore

end OdooSemantic
