import OdooSemantic.Graph.XmlIdentity

/-!
# The profile arrays of XML nodes

A declaration adds its profiles to every node of its key. A reference adds them to a
placeholder, and only where it finds nothing better to link to: at a key that was declared
before it was referenced, references leave no trace; at a key that was referenced before it
was declared, every later reference leaves one (`mem_profilesAt_writeAll`), because no
declaration takes the mark off.
-/

namespace OdooSemantic

open KeyedStore FlaggedEdges

theorem mem_unionProfile {o : Option (List String)} {ps : List String} {p : String} :
    p ∈ unionProfile o ps ↔ p ∈ o.getD [] ∨ p ∈ ps := by
  unfold unionProfile
  rw [List.mem_append, List.mem_filter, decide_eq_true_eq]
  by_cases h : p ∈ ps <;> simp [h]

namespace XmlStore

variable {P : Type}

/-- The profile arrays of the nodes under a key, one after the other. -/
def profilesAt (s : XmlStore P) (xmlid ver : String) : List String :=
  (s.matching xmlid ver).flatMap fun n => n.profile.getD []

/-- The key is referenced, and by a write in front of which it is not declared. -/
def ReferredFirst (ws : List (XmlWrite P)) (xmlid ver : String) : Prop :=
  ∃ us w vs, ws = us ++ w :: vs ∧ w.References xmlid ver ∧
    ∀ d ∈ us ++ [w], ¬ d.Declares xmlid ver

/-- The profile gets to the key by a declaration, or by a reference to a key that is referred
    to first. -/
def Reached (ws : List (XmlWrite P)) (xmlid ver p : String) : Prop :=
  (∃ w ∈ ws, w.Declares xmlid ver ∧ p ∈ w.profiles) ∨
    (ReferredFirst ws xmlid ver ∧ ∃ w ∈ ws, w.References xmlid ver ∧ p ∈ w.profiles)

section Steps

variable {s : XmlStore P} {x v p : String}

theorem mem_profilesAt : p ∈ s.profilesAt x v ↔ ∃ n ∈ s.matching x v, p ∈ n.profile.getD [] :=
  List.mem_flatMap

theorem mem_profilesAt_declare (s : XmlStore P) (ps : List String) (x' v' m : String) (pr : P) :
    p ∈ (s.declare ps x' v' m pr).profilesAt x v ↔
      p ∈ s.profilesAt x v ∨ ((x' = x ∧ v' = v) ∧ p ∈ ps) := by
  by_cases hk : x' = x ∧ v' = v
  · obtain ⟨rfl, rfl⟩ := hk
    rw [mem_profilesAt, mem_profilesAt, matching_declare_self]
    split
    · rename_i hnil
      simp [hnil]
    · rename_i hne
      obtain ⟨n, hn⟩ := List.exists_mem_of_ne_nil _ hne
      simp only [List.mem_map, exists_exists_and_eq_and, Option.getD_some, mem_unionProfile]
      constructor
      · intro h
        obtain ⟨n, hn, hp | hp⟩ := h
        · exact Or.inl ⟨n, hn, hp⟩
        · exact Or.inr ⟨⟨trivial, trivial⟩, hp⟩
      · intro h
        rcases h with ⟨n, hn, hp⟩ | ⟨-, hp⟩
        · exact ⟨n, hn, Or.inl hp⟩
        · exact ⟨n, hn, Or.inr hp⟩
  · rw [profilesAt, matching_declare_ne hk, ← profilesAt]
    exact (or_iff_left fun h => hk h.1).symm

/-- Where nothing resolved is under the key, a reference adds its profiles to a placeholder. -/
theorem mem_profilesAt_inherit_self (h : s.resolved x v = []) (ps : List String) (x' : String) :
    p ∈ (s.inherit ps x' v x).profilesAt x v ↔ p ∈ s.profilesAt x v ∨ p ∈ ps := by
  have hm : (s.inherit ps x' v x).matching x v =
      (mergeStubNode ps x v s.nodes).filter fun n => n.At x v := by
    unfold XmlStore.inherit matching
    simp [h]
  rw [mem_profilesAt, mem_profilesAt, hm]
  unfold mergeStubNode
  rw [filter_mergeWhere _ (by intro n; rfl)]
  split
  · rename_i hex
    obtain ⟨stub, hstub, hat, hmod⟩ := hex
    simp only [List.mem_map, exists_exists_and_eq_and]
    constructor
    · intro hex
      obtain ⟨n, hn, hp⟩ := hex
      split at hp
      · rcases mem_unionProfile.mp hp with hp | hp
        · exact Or.inl ⟨n, hn, hp⟩
        · exact Or.inr hp
      · exact Or.inl ⟨n, hn, hp⟩
    · intro hor
      rcases hor with ⟨n, hn, hp⟩ | hp
      · refine ⟨n, hn, ?_⟩
        split
        · exact mem_unionProfile.mpr (Or.inl hp)
        · exact hp
      · refine ⟨stub, mem_matching.mpr ⟨hstub, hat⟩, ?_⟩
        rw [if_pos ⟨hat, hmod⟩]
        exact mem_unionProfile.mpr (Or.inr hp)
  · have hnew : ([⟨freshId s.nodes, x, v, unresolvedModule, true, some ps, none⟩] :
        List (XmlNode P)).filter (fun n => n.At x v) =
        [⟨freshId s.nodes, x, v, unresolvedModule, true, some ps, none⟩] := by
      simp [XmlNode.At]
    rw [hnew]
    simp only [List.mem_append, List.mem_singleton, or_and_right, exists_or, exists_eq_left,
      Option.getD_some]
    rfl

theorem mem_profilesAt_inherit (s : XmlStore P) (ps : List String) (x' v' b : String) :
    p ∈ (s.inherit ps x' v' b).profilesAt x v ↔
      p ∈ s.profilesAt x v ∨ ((b = x ∧ v' = v) ∧ s.resolved x v = [] ∧ p ∈ ps) := by
  by_cases hk : b = x ∧ v' = v
  · obtain ⟨rfl, rfl⟩ := hk
    by_cases hres : s.resolved b v' = []
    · rw [mem_profilesAt_inherit_self hres]
      simp [hres]
    · rw [profilesAt, matching, nodes_inherit_of_resolved hres, ← matching, ← profilesAt]
      exact (or_iff_left fun h => hres h.2.1).symm
  · rw [profilesAt, matching_inherit_ne hk, ← profilesAt]
    exact (or_iff_left fun h => hk h.1).symm

/-! ## The two kinds of key -/

theorem Clean.resolved_ne_nil (h : s.Clean x v) : s.resolved x v ≠ [] := by
  obtain ⟨n, hn, hu⟩ := h
  simp [resolved, hn, hu]

/-- There is something under the key, and all of it is marked. -/
def Unresolved (s : XmlStore P) (x v : String) : Prop :=
  s.matching x v ≠ [] ∧ ∀ n ∈ s.matching x v, n.unresolved = true

theorem Unresolved.resolved_eq_nil (h : s.Unresolved x v) : s.resolved x v = [] := by
  unfold resolved
  rw [List.filter_eq_nil_iff]
  intro n hn
  simp [h.2 n hn]

theorem Unresolved.declare (h : s.Unresolved x v) (ps : List String) (x' v' m : String) (pr : P) :
    (s.declare ps x' v' m pr).Unresolved x v := by
  by_cases hk : x' = x ∧ v' = v
  · obtain ⟨rfl, rfl⟩ := hk
    unfold Unresolved
    rw [matching_declare_self, if_neg h.1]
    refine ⟨by simpa using h.1, fun n hn => ?_⟩
    obtain ⟨n₀, hn₀, rfl⟩ := List.mem_map.mp hn
    exact h.2 n₀ hn₀
  · unfold Unresolved
    rw [matching_declare_ne hk]
    exact h

/-- A reference leaves an unresolved key unresolved, and makes an empty one so. -/
theorem unresolved_inherit_self (h : ∀ n ∈ s.matching x v, n.unresolved = true)
    (ps : List String) (x' : String) : (s.inherit ps x' v x).Unresolved x v := by
  have hres : s.resolved x v = [] := by
    unfold resolved
    rw [List.filter_eq_nil_iff]
    intro n hn
    simp [h n hn]
  have hm : (s.inherit ps x' v x).matching x v =
      (mergeStubNode ps x v s.nodes).filter fun n => n.At x v := by
    unfold XmlStore.inherit matching
    simp [hres]
  unfold Unresolved
  rw [hm]
  unfold mergeStubNode
  rw [filter_mergeWhere _ (by intro n; rfl)]
  split
  · rename_i hex
    obtain ⟨stub, hstub, hat, -⟩ := hex
    refine ⟨List.ne_nil_of_mem (List.mem_map_of_mem (mem_matching.mpr ⟨hstub, hat⟩)), ?_⟩
    intro n hn
    obtain ⟨n₀, hn₀, rfl⟩ := List.mem_map.mp hn
    split
    · exact h n₀ hn₀
    · exact h n₀ hn₀
  · refine ⟨by simp [XmlNode.At], ?_⟩
    intro n hn
    cases List.mem_append.mp hn with
    | inl hold => exact h n hold
    | inr hnew =>
      obtain ⟨hnew, -⟩ := List.mem_filter.mp hnew
      obtain rfl := List.mem_singleton.mp hnew
      rfl

theorem Unresolved.inherit (h : s.Unresolved x v) (ps : List String) (x' v' b : String) :
    (s.inherit ps x' v' b).Unresolved x v := by
  by_cases hk : b = x ∧ v' = v
  · obtain ⟨rfl, rfl⟩ := hk
    exact unresolved_inherit_self h.2 ps x'
  · unfold Unresolved
    rw [matching_inherit_ne hk]
    exact h

end Steps

/-! ## One write, and a run of writes -/

section Run

variable {s : XmlStore P} {x v p : String} {ws : List (XmlWrite P)}

theorem Unresolved.write (h : s.Unresolved x v) (w : XmlWrite P) : (s.write w).Unresolved x v :=
  write_keeps (·.Unresolved x v) (fun _ h => h.declare) (fun _ h => h.inherit) h w

/-- What one write adds to the key: a declaration its profiles, and a reference too where the
    declaration in front of it has left nothing resolved there. -/
theorem mem_profilesAt_write (s : XmlStore P) (w : XmlWrite P) :
    p ∈ (s.write w).profilesAt x v ↔ p ∈ s.profilesAt x v ∨ (w.Declares x v ∧ p ∈ w.profiles) ∨
      (w.References x v ∧ p ∈ w.profiles ∧
        (s.declare w.profiles w.xmlid w.odooVersion w.module w.props).resolved x v = []) := by
  unfold XmlStore.write XmlWrite.References XmlWrite.Declares
  split
  · rename_i b hb
    rw [mem_profilesAt_inherit, mem_profilesAt_declare, hb, Option.some.injEq]
    tauto
  · rename_i hb
    rw [mem_profilesAt_declare, hb]
    simp

theorem mem_profilesAt_writeAll_of_clean (h : s.Clean x v) (ws : List (XmlWrite P)) :
    p ∈ (writeAll ws s).profilesAt x v ↔
      p ∈ s.profilesAt x v ∨ ∃ w ∈ ws, w.Declares x v ∧ p ∈ w.profiles := by
  induction ws generalizing s with
  | nil => simp [writeAll]
  | cons w ws ih =>
    have hres := (h.declare w.profiles w.xmlid w.odooVersion w.module w.props).resolved_ne_nil
    rw [writeAll, List.foldl_cons, ← writeAll, ih (h.write w), mem_profilesAt_write]
    simp [hres, or_assoc]

theorem mem_profilesAt_writeAll_of_unresolved (h : s.Unresolved x v) (ws : List (XmlWrite P)) :
    p ∈ (writeAll ws s).profilesAt x v ↔
      p ∈ s.profilesAt x v ∨ ∃ w ∈ ws, (w.Declares x v ∨ w.References x v) ∧ p ∈ w.profiles := by
  induction ws generalizing s with
  | nil => simp [writeAll]
  | cons w ws ih =>
    have hres := (h.declare w.profiles w.xmlid w.odooVersion w.module w.props).resolved_eq_nil
    rw [writeAll, List.foldl_cons, ← writeAll, ih (h.write w), mem_profilesAt_write]
    simp only [hres, and_true, List.exists_mem_cons_iff, or_and_right, or_assoc]

theorem referredFirst_cons {w : XmlWrite P} (hd : ¬ w.Declares x v) :
    ReferredFirst (w :: ws) x v ↔ w.References x v ∨ ReferredFirst ws x v := by
  constructor
  · intro h
    obtain ⟨us, w', vs, hsplit, hr, hno⟩ := h
    cases us with
    | nil =>
      obtain ⟨rfl, -⟩ := List.cons.inj hsplit
      exact Or.inl hr
    | cons u us =>
      obtain ⟨rfl, rfl⟩ := List.cons.inj hsplit
      exact Or.inr ⟨us, w', vs, rfl, hr, fun d hdm => hno d (List.mem_cons_of_mem _ hdm)⟩
  · intro h
    rcases h with hr | ⟨us, w', vs, rfl, hr, hno⟩
    · refine ⟨[], w, ws, rfl, hr, fun d hdm => ?_⟩
      rw [List.nil_append, List.mem_singleton] at hdm
      exact hdm ▸ hd
    · refine ⟨w :: us, w', vs, rfl, hr, fun d hdm => ?_⟩
      rw [List.cons_append] at hdm
      cases List.mem_cons.mp hdm with
      | inl heq => exact heq ▸ hd
      | inr hmem => exact hno d hmem

theorem not_referredFirst_of_declares {w : XmlWrite P} (hd : w.Declares x v) :
    ¬ ReferredFirst (w :: ws) x v := by
  intro h
  obtain ⟨us, w', vs, hsplit, -, hno⟩ := h
  cases us with
  | nil =>
    obtain ⟨rfl, -⟩ := List.cons.inj hsplit
    exact hno w (List.mem_singleton_self w) hd
  | cons u us =>
    obtain ⟨rfl, -⟩ := List.cons.inj hsplit
    exact hno w List.mem_cons_self hd

theorem reached_cons_of_quiet {w : XmlWrite P} (hd : ¬ w.Declares x v) (hr : ¬ w.References x v) :
    Reached (w :: ws) x v p ↔ Reached ws x v p := by
  unfold Reached
  rw [referredFirst_cons hd]
  simp [hd, hr]

/-- **Who is in the profile arrays of a key**, after any run of writes. -/
theorem mem_profilesAt_writeAll (ws : List (XmlWrite P)) (h : s.matching x v = []) :
    p ∈ (writeAll ws s).profilesAt x v ↔ Reached ws x v p := by
  have hnone : p ∉ s.profilesAt x v := by
    simp [profilesAt, h]
  induction ws generalizing s with
  | nil =>
    refine iff_of_false hnone fun hreach => ?_
    rcases hreach with ⟨w, hw, -⟩ | ⟨-, w, hw, -⟩
    · exact absurd hw (by simp)
    · exact absurd hw (by simp)
  | cons w ws ih =>
    rw [writeAll, List.foldl_cons, ← writeAll]
    by_cases hd : w.Declares x v
    · -- declared first: from here on references find the declared node
      have hclean := clean_write_of_empty h hd
      have hself : (s.declare w.profiles w.xmlid w.odooVersion w.module w.props).resolved x v ≠ [] := by
        obtain ⟨rfl, rfl⟩ := hd
        exact (clean_declare_of_empty h _ _ _).resolved_ne_nil
      rw [mem_profilesAt_writeAll_of_clean hclean, mem_profilesAt_write, Reached]
      simp [hnone, hself, not_referredFirst_of_declares hd]
    · by_cases hr : w.References x v
      · -- referred to first: from here on nothing under the key is resolved
        obtain ⟨hb, rfl⟩ := hr
        have hempty : (s.declare w.profiles w.xmlid w.odooVersion w.module w.props).matching x
            w.odooVersion = [] := (matching_declare_ne hd).trans h
        have hmarked : (s.write w).Unresolved x w.odooVersion := by
          unfold XmlStore.write
          rw [hb]
          refine unresolved_inherit_self (fun n hn => ?_) _ _
          rw [hempty] at hn
          exact absurd hn (by simp)
        have hres : (s.declare w.profiles w.xmlid w.odooVersion w.module w.props).resolved x
            w.odooVersion = [] := by
          rw [resolved, hempty, List.filter_nil]
        rw [mem_profilesAt_writeAll_of_unresolved hmarked, mem_profilesAt_write, Reached,
          referredFirst_cons hd]
        have href : w.References x w.odooVersion := ⟨hb, rfl⟩
        simp only [hnone, hd, href, hres, false_or, false_and, true_and, and_true, true_or,
          List.exists_mem_cons_iff, or_and_right, exists_or, and_or_left]
        exact or_left_comm
      · have hempty := (matching_write hd hr).trans h
        rw [reached_cons_of_quiet hd hr]
        exact ih hempty (by simp [profilesAt, hempty])

end Run

end XmlStore

end OdooSemantic
