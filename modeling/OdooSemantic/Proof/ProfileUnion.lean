import OdooSemantic.Indexer.WholeArrays

/-!
# Profile arrays are unions

Whatever calls of the write methods a graph comes from, its profile arrays are whole, and the
names in them are those of the writes that declared the node, or made or re-used it as a stub.

"Hence the order of the writes does not matter" is true of every node that no write refers to,
and of every node with a key of its own. It is not true of placeholders: a reference merges the
placeholder only while what it refers to is missing, so a reference that is written before its
target leaves its profiles and one that is written after it does not
(`placeholder_depends_on_order`).
-/

namespace OdooSemantic

open KeyedStore FlaggedEdges XmlStore

/-! ## Histories -/

/-- A history of calls that the indexer may make: profile lists without repeats, models named
    after their module, and the results of a module before what is defined in it. -/
structure Admissible (cs : List WriterCall) : Prop where
  profiles : ∀ c ∈ cs, c.profiles ≠ [] ∧ c.profiles.Nodup
  named : ∀ c ∈ cs, c.Named
  hosts : ∀ us c vs, cs = us ++ c :: vs → ∀ k ∈ c.hosts, ∃ c' ∈ us, k ∈ c'.modules

theorem admissible_nil : Admissible [] where
  profiles := by simp
  named := by simp
  hosts := by simp

theorem admissible_append_singleton {cs : List WriterCall} {c : WriterCall} :
    Admissible (cs ++ [c]) ↔ Admissible cs ∧ (c.profiles ≠ [] ∧ c.profiles.Nodup) ∧ c.Named ∧
      ∀ k ∈ c.hosts, ∃ c' ∈ cs, k ∈ c'.modules := by
  constructor
  · intro h
    have hlast : c ∈ cs ++ [c] := List.mem_append_right _ (List.mem_singleton_self c)
    refine ⟨⟨?_, ?_, ?_⟩, h.profiles c hlast, h.named c hlast, h.hosts cs c [] rfl⟩
    · intro c' hc'
      exact h.profiles c' (List.mem_append_left _ hc')
    · intro c' hc'
      exact h.named c' (List.mem_append_left _ hc')
    · intro us c' vs hsplit
      exact h.hosts us c' (vs ++ [c]) (by rw [hsplit, List.append_assoc, List.cons_append])
  · intro h
    obtain ⟨hcs, hps, hnamed, hhosts⟩ := h
    refine ⟨?_, ?_, ?_⟩
    · intro c' hc'
      cases List.mem_append.mp hc' with
      | inl hold => exact hcs.profiles c' hold
      | inr hnew => exact List.mem_singleton.mp hnew ▸ hps
    · intro c' hc'
      cases List.mem_append.mp hc' with
      | inl hold => exact hcs.named c' hold
      | inr hnew => exact List.mem_singleton.mp hnew ▸ hnamed
    · intro us c' vs hsplit k hk
      cases vs.eq_nil_or_concat with
      | inl hnil =>
        subst hnil
        obtain ⟨rfl, hc⟩ := List.append_inj' hsplit rfl
        obtain rfl := (List.cons.inj hc).1
        exact hhosts k hk
      | inr hconcat =>
        obtain ⟨ws, w, rfl⟩ := hconcat
        rw [List.concat_eq_append, ← List.cons_append, ← List.append_assoc] at hsplit
        exact hcs.hosts us c' ws (List.append_inj' hsplit rfl).1 k hk

theorem mem_modules_of_written {cs : List WriterCall} {c : WriterCall} (hc : c ∈ cs) {k : ModuleKey}
    (hk : k ∈ c.modules) (g : Graph) : k ∈ (WriterCall.execAll cs g).modules := by
  obtain ⟨us, vs, rfl⟩ := List.append_of_mem hc
  rw [WriterCall.execAll, List.foldl_append, List.foldl_cons, ← WriterCall.execAll,
    WriterCall.graph_execAll]
  refine Stmt.mem_modules_execAll ?_ (WriterCall.mem_modules_exec hk _)
  intro s hs
  obtain ⟨c', -, hs⟩ := List.mem_flatMap.mp hs
  exact (WriterCall.isWrite_of_mem_stmts hs).1

theorem Admissible.whole {cs : List WriterCall} (h : Admissible cs) :
    (WriterCall.execAll cs {}).Whole := by
  induction cs using List.reverseRecOn with
  | nil => exact Graph.whole_empty
  | append_singleton cs c ih =>
    obtain ⟨hcs, hps, hnamed, hhosts⟩ := admissible_append_singleton.mp h
    rw [WriterCall.execAll_append]
    refine WriterCall.whole_exec (ih hcs) hps hnamed ?_
    intro k hk
    obtain ⟨c', hc', hk'⟩ := hhosts k hk
    exact mem_modules_of_written hc' hk' _

/-- The writes of a history bring the profile to the node: one of them declares it, or makes or
    re-uses it as a stub, at the point of the history where it is sent. -/
def Brought (cs : List WriterCall) (n : ProfileNode) (p : String) : Prop :=
  ∃ us s vs, cs.flatMap WriterCall.stmts = us ++ s :: vs ∧
    s.Brings (Stmt.execAll us {}) n ∧ p ∈ s.profiles

/-- No write of the history refers to the node as a parent, delegate, base or patch target. -/
def Unreferenced (cs : List WriterCall) (n : ProfileNode) : Prop :=
  ∀ s ∈ cs.flatMap WriterCall.stmts, n ∉ s.references

/-- A node that no placeholder shares its key with. -/
def ProfileNode.Owned : ProfileNode → Prop
  | .ref r => r.Real ∧ r.Keyed
  | .stylesheet _ => True

theorem unreferenced_of_owned {n : ProfileNode} (h : n.Owned) (cs : List WriterCall) :
    Unreferenced cs n := by
  intro s hs hmem
  cases n with
  | stylesheet k => cases s <;> simp [Stmt.references] at hmem
  | ref r =>
    obtain ⟨hreal, hkeyed⟩ := h
    cases s with
    | code ps st => exact CodeStmt.not_real_of_mem_references (mem_map_ref.mp hmem) hreal
    | js ps st => exact JsStmt.not_real_of_mem_references (mem_map_ref.mp hmem) hreal
    | xml ps st =>
      have hr : r ∈ st.references := mem_map_ref.mp hmem
      cases st with
      | inheritView v base =>
        obtain rfl := List.mem_singleton.mp hr
        exact hkeyed
      | inheritQWeb q base =>
        obtain rfl := List.mem_singleton.mp hr
        exact hkeyed
      | _ => exact absurd hr (by simp [XmlStmt.references])
    | _ => exact absurd hmem (by simp [Stmt.references])

theorem isWrite_of_mem_history {cs : List WriterCall} {s : Stmt}
    (hs : s ∈ cs.flatMap WriterCall.stmts) : s.IsWrite := by
  obtain ⟨c, -, hs⟩ := List.mem_flatMap.mp hs
  exact (WriterCall.isWrite_of_mem_stmts hs).1

theorem mem_names_history (cs : List WriterCall) (n : ProfileNode) (p : String) :
    p ∈ (WriterCall.execAll cs {}).names n ↔ Brought cs n p := by
  have hnone : p ∉ ({} : Graph).names n := by
    cases n with
    | stylesheet k => simp [Graph.names, Graph.arrays]
    | ref r => cases r <;> simp [Graph.names, Graph.arrays, matching]
  rw [WriterCall.graph_execAll, Stmt.mem_names_execAll fun s hs => isWrite_of_mem_history hs]
  exact or_iff_right hnone

theorem brought_of_unreferenced {cs : List WriterCall} {n : ProfileNode} (h : Unreferenced cs n)
    (p : String) : Brought cs n p ↔
      ∃ s ∈ cs.flatMap WriterCall.stmts, n ∈ s.merges ∧ p ∈ s.profiles := by
  constructor
  · intro hb
    obtain ⟨us, s, vs, hsplit, hbrings, hp⟩ := hb
    have hs : s ∈ cs.flatMap WriterCall.stmts := by
      rw [hsplit]
      exact List.mem_append_right _ List.mem_cons_self
    cases hbrings with
    | inl hmerges => exact ⟨s, hs, hmerges, hp⟩
    | inr href => exact absurd href.1 (h s hs)
  · intro hex
    obtain ⟨s, hs, hmerges, hp⟩ := hex
    obtain ⟨us, vs, hsplit⟩ := List.append_of_mem hs
    exact ⟨us, s, vs, hsplit, Or.inl hmerges, hp⟩

/-- **Profile arrays are unions.** In the graph of an admissible history every array is whole;
the names of a node are those of the writes that declared it, or made or re-used it as a stub;
and where nothing refers to the node, as never happens to one with a key of its own, the order
of the calls has no part in it. -/
theorem names_union {cs : List WriterCall} (h : Admissible cs) :
    (∀ n, ∀ a ∈ (WriterCall.execAll cs {}).arrays n, Whole a) ∧
    (∀ n p, p ∈ (WriterCall.execAll cs {}).names n ↔ Brought cs n p) ∧
    (∀ n, n.Owned → Unreferenced cs n) ∧
    ∀ n, Unreferenced cs n → ∀ p,
      (p ∈ (WriterCall.execAll cs {}).names n ↔
        ∃ s ∈ cs.flatMap WriterCall.stmts, n ∈ s.merges ∧ p ∈ s.profiles) ∧
      ∀ ds : List WriterCall, ds.Perm cs →
        (p ∈ (WriterCall.execAll ds {}).names n ↔ p ∈ (WriterCall.execAll cs {}).names n) := by
  refine ⟨h.whole.arrays, mem_names_history cs, fun n hn => unreferenced_of_owned hn cs, ?_⟩
  intro n hn p
  have hcs := (mem_names_history cs n p).trans (brought_of_unreferenced hn p)
  refine ⟨hcs, fun ds hperm => ?_⟩
  have hstmts : (ds.flatMap WriterCall.stmts).Perm (cs.flatMap WriterCall.stmts) :=
    hperm.flatMap_right _
  have hds : Unreferenced ds n := fun s hs => hn s (hstmts.mem_iff.mp hs)
  rw [hcs, mem_names_history, brought_of_unreferenced hds]
  exact exists_congr fun s => and_congr_left fun _ => hstmts.mem_iff

/-! ## The order in which a parent comes -/

namespace PlaceholderOrder

/-- A module with one model, which inherits from `parents`. -/
def result (module model : String) (parents : List String) : ParseResult :=
  ⟨{ name := module, odooVersion := "17.0", repo := module, path := module, depends := [] },
    [{ name := model, module, odooVersion := "17.0", inherit := parents, hadExplicitName := true }]⟩

/-- Two models want the parent `mail.thread`, and one repo has it. -/
def sale : WriterCall := .writeResults ["shop"] [result "sale" "sale.order" ["mail.thread"]]

def mail : WriterCall := .writeResults ["base"] [result "mail" "mail.thread" []]

def stock : WriterCall := .writeResults ["depot"] [result "stock" "stock.move" ["mail.thread"]]

/-- A view of `mail` and a component, after their module. -/
def mailViews : WriterCall :=
  .writeViewResults ["base", "root"] [⟨(result "mail" "mail.thread" []).module,
    [⟨"mail.form", "form", "mail.thread", "mail", "17.0", "form", "primary", some "mail.base", []⟩],
    [⟨"mail.tmpl", "mail", "17.0", none⟩]⟩]

/-- The placeholder of `mail.thread`. -/
def missing : ProfileNode := .ref (.model (stubModel "mail.thread" "17.0"))

theorem names_union_mail : Whole (some ["shop"]) ∧
    ("shop" ∈ (WriterCall.execAll [sale, mail, mailViews] {}).names missing ↔
      Brought [sale, mail, mailViews] missing "shop") := by
  have h : Admissible ((([] ++ [sale]) ++ [mail]) ++ [mailViews]) := by
    refine admissible_append_singleton.mpr ⟨?_, by decide, by decide, ?_⟩
    · refine admissible_append_singleton.mpr ⟨?_, by decide, by decide, by decide⟩
      exact admissible_append_singleton.mpr ⟨admissible_nil, by decide, by decide, by decide⟩
    · intro k hk
      refine ⟨mail, by simp, ?_⟩
      revert k
      decide
  exact ⟨(names_union h).1 missing _ (by decide), (names_union h).2.1 missing "shop"⟩

theorem admissible_results (cs : List WriterCall) (hcs : cs ⊆ [sale, mail, stock]) :
    Admissible cs := by
  have hresults : ∀ c ∈ cs, c = sale ∨ c = mail ∨ c = stock := by
    intro c hc
    simpa using hcs hc
  refine ⟨?_, ?_, ?_⟩
  · intro c hc
    rcases hresults c hc with rfl | rfl | rfl <;> decide
  · intro c hc
    rcases hresults c hc with rfl | rfl | rfl <;> decide
  · intro us c vs hsplit k hk
    have hc : c ∈ cs := hsplit ▸ List.mem_append_right _ List.mem_cons_self
    rcases hresults c hc with rfl | rfl | rfl <;>
      exact absurd hk (by simp [WriterCall.hosts, sale, mail, stock])

/-- Two orders of the same three calls. The placeholder is there after both, and only in one
    of them does it show itself to the profile `depot`. -/
theorem placeholder_depends_on_order :
    Admissible [sale, mail, stock] ∧ Admissible [sale, stock, mail] ∧
      List.Perm [sale, stock, mail] [sale, mail, stock] ∧
      (WriterCall.execAll [sale, mail, stock] {}).names missing = ["shop"] ∧
      (WriterCall.execAll [sale, stock, mail] {}).names missing = ["shop", "depot"] := by
  refine ⟨admissible_results _ (by simp), admissible_results _ (by simp), ?_, by decide, by decide⟩
  exact (List.Perm.swap mail stock []).cons sale

end PlaceholderOrder

end OdooSemantic
