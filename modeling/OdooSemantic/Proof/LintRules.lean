import OdooSemantic.Indexer.LintRules

/-!
# The nodes of the lint rules

Rules that differ in their kind alone are two to the parser and one to the graph, where the later is
put over the earlier. So the rules of a version all have their nodes exactly if no two entries of
its catalogue differ in this way (`lint_rules_kept_iff`). Rules that are read from `eslintrc` are of
kind `eslint-odoo`, and those that are curated for the same tool of kind `eslint`.
-/

namespace OdooSemantic

/-- Each rule has a node, and none has that of another. -/
def SeparateNodes (g : LintGraph) (rules : List LintRuleInfo) : Prop :=
  rules.Pairwise (fun r s => r.key ≠ s.key) ∧ ∀ r ∈ rules, g.rules.lookup r.key = some r.props

/-- No two entries have one id and different kinds. -/
def KindOfId (entries : List LintRuleInfo) : Prop :=
  ∀ r ∈ entries, ∀ s ∈ entries, r.ruleId = s.ruleId → r.kind = s.kind

section Catalogue

variable {v : String} {r s : LintRuleInfo}

theorem odooVersion_of_mem_checkers {file : CheckerFile} (h : r ∈ parsePylintOdooSource v file) :
    r.odooVersion = v := by
  obtain ⟨body, -, h⟩ := List.mem_flatMap.mp h
  obtain ⟨stmt, -, h⟩ := List.mem_flatMap.mp h
  unfold CheckerStmt.rules at h
  split at h
  · split at h
    · obtain ⟨item, -, hitem⟩ := List.mem_filterMap.mp h
      unfold pylintRule at hitem
      split at hitem
      · obtain rfl := Option.some.inj hitem
        rfl
      · exact absurd hitem (by simp)
    · exact absurd h List.not_mem_nil
  · exact absurd h List.not_mem_nil

theorem odooVersion_of_mem_eslintrc {rules : Dict String EslintSetting}
    (h : r ∈ parseEslintConfig v rules) : r.odooVersion = v := by
  obtain ⟨item, -, rfl⟩ := List.mem_map.mp h
  rfl

theorem odooVersion_of_mem_ruffToml {data : RuffToml} (h : r ∈ parseRuffToml v data) :
    r.odooVersion = v := by
  obtain ⟨category, -, h⟩ := List.mem_filterMap.mp h
  obtain ⟨ruleId, -, rfl⟩ := Option.map_eq_some_iff.mp h
  rfl

theorem odooVersion_of_mem_static {static : List (Option StaticRule)}
    (h : r ∈ loadStaticLintRules v static) : r.odooVersion = v := by
  obtain ⟨entry, -, h⟩ := List.mem_filterMap.mp h
  obtain ⟨rule, -, h⟩ := Option.bind_eq_some_iff.mp h
  obtain ⟨ruleId, -, rfl⟩ := Option.map_eq_some_iff.mp h
  rfl

/-- Whatever the file, the version is the one that was asked for. -/
theorem odooVersion_of_mem_entries {catalogue : LintCatalogue} (h : r ∈ catalogue.entries v) :
    r.odooVersion = v := by
  rcases List.mem_append.mp h with h | h
  · split at h
    · cases hcheckout : catalogue.checkout with
      | none =>
        rw [hcheckout] at h
        exact absurd h List.not_mem_nil
      | some checkout =>
        rw [hcheckout] at h
        rcases List.mem_append.mp h with h | h
        · rcases List.mem_append.mp h with h | h
          · obtain ⟨file, -, h⟩ := List.mem_flatMap.mp h
            exact odooVersion_of_mem_checkers h
          · cases heslint : checkout.eslintrc with
            | none =>
              rw [heslint] at h
              exact absurd h List.not_mem_nil
            | some rules =>
              rw [heslint] at h
              exact odooVersion_of_mem_eslintrc h
        · cases hruff : checkout.ruffToml with
          | none =>
            rw [hruff] at h
            exact absurd h List.not_mem_nil
          | some data =>
            rw [hruff] at h
            exact odooVersion_of_mem_ruffToml h
    · exact absurd h List.not_mem_nil
  · exact odooVersion_of_mem_static h

/-- Rules with nodes of their own have one kind an id, and the other way round. -/
theorem pairwise_key_iff {entries : List LintRuleInfo} (hversion : ∀ r ∈ entries, r.odooVersion = v) :
    (firstOf LintRuleInfo.seenKey entries).Pairwise (fun r s => r.key ≠ s.key) ↔
      KindOfId entries := by
  constructor
  · intro hkeys r hr s hs hid
    obtain ⟨r', hr', hseen⟩ := @exists_mem_firstOf _ _ _ LintRuleInfo.seenKey _ _ hr
    obtain ⟨s', hs', hseen'⟩ := @exists_mem_firstOf _ _ _ LintRuleInfo.seenKey _ _ hs
    obtain ⟨hid₁, hkind₁⟩ := Prod.mk.inj hseen
    obtain ⟨hid₂, hkind₂⟩ := Prod.mk.inj hseen'
    have hkey : r'.key = s'.key := by
      unfold LintRuleInfo.key
      rw [hid₁, hid₂, hid, hversion _ (mem_of_mem_firstOf hr'), hversion _ (mem_of_mem_firstOf hs')]
    have hnodup : ((firstOf LintRuleInfo.seenKey entries).map LintRuleInfo.key).Nodup :=
      List.pairwise_map.mpr hkeys
    obtain rfl := List.inj_on_of_nodup_map hnodup hr' hs' hkey
    rw [← hkind₁, ← hkind₂]
  · intro hkind
    refine (pairwise_firstOf entries).imp_of_mem ?_
    intro r s hr hs hne hkey
    have hid : r.ruleId = s.ruleId := (LintRuleKey.mk.inj hkey).1
    have hsame := hkind r (mem_of_mem_firstOf hr) s (mem_of_mem_firstOf hs) hid
    exact hne (Prod.ext hid hsame)

/-- The rules of a version are all there afterwards, each as a node of its own, exactly if no two
entries of the catalogue have one id and different kinds. -/
theorem lint_rules_kept_iff (catalogue : LintCatalogue) (v : String) (g : LintGraph) :
    SeparateNodes (g.writeLintRules (parseLintRulesForVersion v catalogue))
        (parseLintRulesForVersion v catalogue) ↔
      KindOfId (catalogue.entries v) := by
  have hversion : ∀ r ∈ catalogue.entries v, r.odooVersion = v := fun r hr =>
    odooVersion_of_mem_entries hr
  have hiff := pairwise_key_iff hversion
  constructor
  · intro h
    exact hiff.mp h.1
  · intro h
    have hkeys := hiff.mpr h
    refine ⟨hkeys, fun r hr => ?_⟩
    rw [LintGraph.rules_writeLintRules]
    exact KeyedStore.lookup_foldl_overwrite_of_mem hkeys hr _

end Catalogue

namespace NoUndef

/-- `"no-undef": "error"` in `eslintrc`, and the curated rule of that name. -/
def catalogue : LintCatalogue where
  checkout := some { eslintrc := some (Dict.empty.set "no-undef" (.plain (.str "error"))) }
  static :=
    [some
      { ruleId := some "no-undef"
        kind := some "eslint"
        message := some "Reference to undeclared variable."
        severity := some "error"
        filePattern := some "**/*.js" }]

/-- The parser keeps both. -/
example : (parseLintRulesForVersion "17.0" catalogue).map (·.kind) = ["eslint-odoo", "eslint"] := by
  decide

theorem one_node : ¬ SeparateNodes
    (({} : LintGraph).writeLintRules (parseLintRulesForVersion "17.0" catalogue))
    (parseLintRulesForVersion "17.0" catalogue) := by
  intro h
  exact absurd h.1 (by decide)

end NoUndef

end OdooSemantic
