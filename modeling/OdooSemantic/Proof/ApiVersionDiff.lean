import OdooSemantic.Mcp.ApiVersionDiff
import OdooSemantic.Proof.CoreVersions

/-!
# `api_version_diff` beside the diff engine

The tool says added, removed or not found of a name exactly where the diff engine says it of every
symbol that the name finds, what has been replaced counted as removed. Where the two records found
are of one symbol, it says changed where the two signatures are there and differ, and stable
otherwise (`api_version_diff_agrees`).
-/

namespace OdooSemantic

open CoreIndex

/-! ## The diff engine, name by name -/

section Names

variable {old new : List CoreSymbolInfo} {q : String}

theorem name_mem_added : q ∈ (computeDiff old new).added.map (·.qualifiedName) ↔
    (byQname new).get? q ≠ none ∧ (byQname old).get? q = none := by
  rw [List.mem_map]
  constructor
  · rintro ⟨n, hn, rfl⟩
    obtain ⟨hnew, hold⟩ := mem_added.mp hn
    exact ⟨by simp [hnew], hold⟩
  · rintro ⟨hnew, hold⟩
    obtain ⟨n, hn⟩ := Option.ne_none_iff_exists'.mp hnew
    obtain ⟨-, rfl⟩ := mem_of_get?_byQname hn
    exact ⟨n, mem_added.mpr ⟨hn, hold⟩, rfl⟩

/-- What is gone is removed or replaced. -/
theorem name_mem_removed_or_replaced :
    (q ∈ (computeDiff old new).removed.map (·.qualifiedName) ∨
      q ∈ (computeDiff old new).replaced.map Prod.fst) ↔
    (byQname old).get? q ≠ none ∧ (byQname new).get? q = none := by
  constructor
  · rintro (h | h)
    · obtain ⟨o, ho, rfl⟩ := List.mem_map.mp h
      obtain ⟨hold, hnew, -⟩ := mem_removed.mp ho
      exact ⟨by simp [hold], hnew⟩
    · obtain ⟨names, hnames, rfl⟩ := List.mem_map.mp h
      obtain ⟨s, hs, hname, -, hnew, -⟩ := mem_replaced.mp hnames
      exact ⟨hname ▸ get?_byQname_of_mem hs, hnew⟩
  · rintro ⟨hold, hnew⟩
    by_cases hreplaced : q ∈ (computeDiff old new).replaced.map Prod.fst
    · exact Or.inr hreplaced
    · obtain ⟨o, ho⟩ := Option.ne_none_iff_exists'.mp hold
      obtain ⟨-, rfl⟩ := mem_of_get?_byQname ho
      exact Or.inl (List.mem_map.mpr ⟨o, mem_removed.mpr ⟨ho, hnew, hreplaced⟩, rfl⟩)

/-- What is in both is stable, or it is deprecated in the new one only. -/
theorem mem_stable_iff (h : q ∉ (computeDiff old new).deprecated.map (·.qualifiedName))
    {p : CoreSymbolInfo × CoreSymbolInfo} (hq : p.2.qualifiedName = q) :
    p ∈ (computeDiff old new).stable ↔
      (byQname old).get? q = some p.1 ∧ (byQname new).get? q = some p.2 := by
  subst hq
  rw [mem_stable]
  constructor
  · rintro ⟨hnew, hold, -⟩
    exact ⟨hold, hnew⟩
  · rintro ⟨hold, hnew⟩
    refine ⟨hnew, hold, ?_⟩
    by_contra hdep
    rw [Bool.not_eq_false] at hdep
    exact h (List.mem_map.mpr ⟨p.2, mem_deprecated.mpr ⟨hnew, p.1, hold, hdep⟩, rfl⟩)

end Names

/-! ## The symbols of a version in the graph -/

namespace CoreIndex

variable {g : CoreIndex} {version : String} {symbols : List CoreSymbolInfo} {name q : String}

/-- These are the symbols of the version, up to what reading them back fills in. -/
def Holds (g : CoreIndex) (version : String) (symbols : List CoreSymbolInfo) : Prop :=
  ∀ q, (byQname (g.fetchCoreSymbols version)).get? q = ((byQname symbols).get? q).map stored

theorem stored_info (k : CoreSymbolKey) (node : CoreSymbolNode) :
    stored (info k node) = info k node := by
  have hdefault : ∀ text default : String, default ≠ "" →
      orDefault (orDefault text default) default = orDefault text default := by
    intro text default hne
    unfold orDefault
    by_cases h : text = ""
    · rw [if_pos h, if_neg hne]
    · rw [if_neg h, if_neg h]
  rw [stored, info]
  simp only [hdefault _ "function" (by decide), hdefault _ "stable" (by decide)]

/-- What is read of a version is of it, whatever the graph. -/
theorem holds_fetchCoreSymbols (g : CoreIndex) (version : String) :
    g.Holds version (g.fetchCoreSymbols version) := by
  intro q
  rw [get?_byQname_fetch, Option.map_map]
  exact congrArg (fun f => Option.map f _) (funext fun node => (stored_info _ node).symm)

/-- What the source of a version has is of it, after any calls of `index_core`. -/
theorem Written.holds {sources : List CoreSource} {c : CoreSource} (h : Written sources g)
    (hc : c ∈ sources) : g.Holds c.version c.symbols := by
  intro q
  rw [h.get?_fetch hc, get?_byQname]
  rfl

/-- The record of a symbol. -/
theorem Holds.of_matching (h : g.Holds version symbols) {r : CoreSymbolRecord}
    (hr : r ∈ g.matching name version) : matchesName name r.qualifiedName = true ∧
      ∃ s, (byQname symbols).get? r.qualifiedName = some s ∧ s.signature = r.signature := by
  obtain ⟨hlookup, hversion, hname⟩ := mem_matching.mp hr
  have hread := h r.qualifiedName
  have hkey : (⟨r.qualifiedName, version⟩ : CoreSymbolKey) = r.1 := by rw [← hversion]; rfl
  rw [get?_byQname_fetch, hkey, hlookup] at hread
  obtain ⟨s, hs, hstored⟩ := Option.map_eq_some_iff.mp hread.symm
  exact ⟨hname, s, hs, congrArg CoreSymbolInfo.signature hstored⟩

theorem Holds.exists_matching (h : g.Holds version symbols) (hname : matchesName name q = true)
    (hq : (byQname symbols).get? q ≠ none) : ∃ r ∈ g.matching name version, r.qualifiedName = q := by
  obtain ⟨s, hs⟩ := Option.ne_none_iff_exists'.mp hq
  have hread := h q
  rw [get?_byQname_fetch, hs] at hread
  obtain ⟨node, hnode, -⟩ := Option.map_eq_some_iff.mp hread
  exact ⟨(⟨q, version⟩, node), mem_matching.mpr ⟨hnode, rfl, hname⟩, rfl⟩

/-- **Nothing is found**, exactly where nothing of the version has the name. -/
theorem Holds.fetch_eq_none_iff (h : g.Holds version symbols) :
    g.fetchCoreSymbol name version = none ↔
      ∀ q, matchesName name q = true → (byQname symbols).get? q = none := by
  constructor
  · intro hnone q hname
    by_contra hq
    obtain ⟨r, hr, -⟩ := h.exists_matching hname hq
    obtain ⟨found, hfound, -⟩ := fetchCoreSymbol_shortest hr
    rw [hnone] at hfound
    exact absurd hfound (by simp)
  · intro hall
    by_contra hsome
    obtain ⟨r, hr⟩ := Option.ne_none_iff_exists'.mp hsome
    obtain ⟨hname, s, hs, -⟩ := h.of_matching (mem_of_fetchCoreSymbol hr)
    rw [hall _ hname] at hs
    exact absurd hs (by simp)

end CoreIndex

/-! ## The tool -/

/-- The name finds this symbol, in one of the two versions or in both. -/
def FindsSymbol (name : String) (old new : List CoreSymbolInfo) (q : String) : Prop :=
  matchesName name q = true ∧ ((byQname old).get? q ≠ none ∨ (byQname new).get? q ≠ none)

section Tool

variable {g : CoreIndex} {fromVersion toVersion : String} {old new : List CoreSymbolInfo}

theorem verdict_eq (g : CoreIndex) (hne : fromVersion ≠ toVersion) (name : String) :
    (g.apiVersionDiff name fromVersion toVersion).verdict =
      match g.fetchCoreSymbol name fromVersion, g.fetchCoreSymbol name toVersion with
      | none, none => .notFound
      | some _, none => .removed
      | none, some _ => .added
      | some o, some n => if signatureChanged o.signature n.signature then .changed else .stable := by
  rw [apiVersionDiff, if_neg hne]
  unfold formatApiDiff
  cases g.fetchCoreSymbol name fromVersion <;> cases g.fetchCoreSymbol name toVersion <;>
    simp only
  split <;> rfl

theorem verdict_notFound (g : CoreIndex) (hne : fromVersion ≠ toVersion) (name : String) :
    (g.apiVersionDiff name fromVersion toVersion).verdict = .notFound ↔
      g.fetchCoreSymbol name fromVersion = none ∧ g.fetchCoreSymbol name toVersion = none := by
  rw [verdict_eq g hne]
  cases g.fetchCoreSymbol name fromVersion <;> cases g.fetchCoreSymbol name toVersion <;> simp
  split <;> simp

theorem verdict_added (g : CoreIndex) (hne : fromVersion ≠ toVersion) (name : String) :
    (g.apiVersionDiff name fromVersion toVersion).verdict = .added ↔
      g.fetchCoreSymbol name toVersion ≠ none ∧ g.fetchCoreSymbol name fromVersion = none := by
  rw [verdict_eq g hne]
  cases g.fetchCoreSymbol name fromVersion <;> cases g.fetchCoreSymbol name toVersion <;> simp
  split <;> simp

theorem verdict_removed (g : CoreIndex) (hne : fromVersion ≠ toVersion) (name : String) :
    (g.apiVersionDiff name fromVersion toVersion).verdict = .removed ↔
      g.fetchCoreSymbol name fromVersion ≠ none ∧ g.fetchCoreSymbol name toVersion = none := by
  rw [verdict_eq g hne]
  cases g.fetchCoreSymbol name fromVersion <;> cases g.fetchCoreSymbol name toVersion <;> simp
  split <;> simp

/-- With two records, it is up to their signatures. -/
theorem verdict_both (hne : fromVersion ≠ toVersion) {name : String} {o n : CoreSymbolRecord}
    (ho : g.fetchCoreSymbol name fromVersion = some o)
    (hn : g.fetchCoreSymbol name toVersion = some n) :
    (g.apiVersionDiff name fromVersion toVersion).verdict =
      if signatureChanged o.signature n.signature then .changed else .stable := by
  rw [verdict_eq g hne, ho, hn]

theorem exists_of_fetch (h : g.Holds fromVersion old) {name : String}
    (hsome : g.fetchCoreSymbol name fromVersion ≠ none) :
    ∃ q, matchesName name q = true ∧ (byQname old).get? q ≠ none := by
  obtain ⟨r, hr⟩ := Option.ne_none_iff_exists'.mp hsome
  obtain ⟨hname, s, hs, -⟩ := h.of_matching (mem_of_fetchCoreSymbol hr)
  exact ⟨r.qualifiedName, hname, by simp [hs]⟩

/-- Only one of the versions has something of the name: every symbol of the name is there and not
in the other one. -/
theorem only_iff (hthere : g.Holds fromVersion old) (hother : g.Holds toVersion new)
    (name : String) :
    (g.fetchCoreSymbol name fromVersion ≠ none ∧ g.fetchCoreSymbol name toVersion = none) ↔
      (∃ q, FindsSymbol name old new q) ∧
        ∀ q, FindsSymbol name old new q → (byQname old).get? q ≠ none ∧ (byQname new).get? q = none := by
  rw [hother.fetch_eq_none_iff]
  constructor
  · rintro ⟨hsome, hnone⟩
    refine ⟨?_, fun q hq => ?_⟩
    · obtain ⟨q, hname, hq⟩ := exists_of_fetch hthere hsome
      exact ⟨q, hname, Or.inl hq⟩
    · have hnew := hnone q hq.1
      exact ⟨hq.2.resolve_right fun h => h hnew, hnew⟩
  · rintro ⟨⟨q, hq⟩, hall⟩
    refine ⟨fun hnone => ?_, fun q' hname => ?_⟩
    · exact (hall q hq).1 (hthere.fetch_eq_none_iff.mp hnone q hq.1)
    · by_contra hq'
      exact hq' (hall q' ⟨hname, Or.inr hq'⟩).2

theorem findsSymbol_comm {name q : String} : FindsSymbol name old new q ↔ FindsSymbol name new old q :=
  and_congr_right fun _ => or_comm

/-- **The report and the diff engine.** -/
theorem api_version_diff_agrees (hold : g.Holds fromVersion old) (hnew : g.Holds toVersion new)
    (hne : fromVersion ≠ toVersion) (name : String) :
    let diff := computeDiff old new
    let verdict := (g.apiVersionDiff name fromVersion toVersion).verdict
    (verdict = .notFound ↔ ∀ q, ¬FindsSymbol name old new q) ∧
    (verdict = .added ↔ (∃ q, FindsSymbol name old new q) ∧
      ∀ q, FindsSymbol name old new q → q ∈ diff.added.map (·.qualifiedName)) ∧
    (verdict = .removed ↔ (∃ q, FindsSymbol name old new q) ∧ ∀ q, FindsSymbol name old new q →
      q ∈ diff.removed.map (·.qualifiedName) ∨ q ∈ diff.replaced.map Prod.fst) ∧
    ∀ o n, g.fetchCoreSymbol name fromVersion = some o →
      g.fetchCoreSymbol name toVersion = some n → o.qualifiedName = n.qualifiedName →
      (verdict = .changed ↔ ∃ o' n', (byQname old).get? o.qualifiedName = some o' ∧
        (byQname new).get? o.qualifiedName = some n' ∧
        signatureChanged o'.signature n'.signature = true) ∧
      (o.qualifiedName ∉ diff.deprecated.map (·.qualifiedName) →
        (verdict = .stable ↔ ∃ p ∈ diff.stable, p.2.qualifiedName = o.qualifiedName ∧
          signatureChanged p.1.signature p.2.signature = false)) := by
  intro diff verdict
  refine ⟨?_, ?_, ?_, ?_⟩
  · rw [verdict_notFound g hne, hold.fetch_eq_none_iff, hnew.fetch_eq_none_iff]
    constructor
    · rintro ⟨hfrom, hto⟩ q ⟨hname, hq | hq⟩
      · exact hq (hfrom q hname)
      · exact hq (hto q hname)
    · intro hnone
      refine ⟨fun q hname => ?_, fun q hname => ?_⟩ <;> by_contra hq
      · exact hnone q ⟨hname, Or.inl hq⟩
      · exact hnone q ⟨hname, Or.inr hq⟩
  · rw [verdict_added g hne, only_iff hnew hold]
    refine and_congr (exists_congr fun q => findsSymbol_comm) (forall_congr' fun q => ?_)
    exact imp_congr findsSymbol_comm name_mem_added.symm
  · rw [verdict_removed g hne, only_iff hold hnew]
    refine and_congr Iff.rfl (forall_congr' fun q => imp_congr Iff.rfl ?_)
    exact name_mem_removed_or_replaced.symm
  · intro o n ho hn hsame
    have hverdict : verdict = _ := verdict_both hne ho hn
    obtain ⟨-, o', ho', hosig⟩ := hold.of_matching (mem_of_fetchCoreSymbol ho)
    obtain ⟨-, n', hn', hnsig⟩ := hnew.of_matching (mem_of_fetchCoreSymbol hn)
    rw [← hsame] at hn'
    rw [hverdict, ← hosig, ← hnsig]
    refine ⟨?_, fun hdeprecated => ?_⟩
    · constructor
      · intro hchanged
        refine ⟨o', n', ho', hn', ?_⟩
        by_contra hno
        rw [if_neg hno] at hchanged
        exact absurd hchanged (by simp)
      · rintro ⟨o'', n'', ho'', hn'', hchanged⟩
        rw [Option.some.inj (ho'.symm.trans ho''), Option.some.inj (hn'.symm.trans hn''),
          if_pos hchanged]
    · constructor
      · intro hstable
        have hname := (mem_of_get?_byQname hn').2
        refine ⟨(o', n'), (mem_stable_iff hdeprecated hname).mpr ⟨ho', hn'⟩, hname, ?_⟩
        by_contra hyes
        rw [Bool.not_eq_false] at hyes
        rw [if_pos hyes] at hstable
        exact absurd hstable (by simp)
      · rintro ⟨p, hp, hname, hstable⟩
        obtain ⟨hpo, hpn⟩ := (mem_stable_iff hdeprecated hname).mp hp
        rw [Option.some.inj (ho'.symm.trans hpo), Option.some.inj (hn'.symm.trans hpn), hstable]
        rfl

end Tool

namespace NameGet

def symbol (qualifiedName version : String) (signature : Option String) : CoreSymbolInfo where
  qualifiedName
  kind := "function"
  odooVersion := version
  signature

def source17 : CoreSource where
  version := "17.0"
  parsed := [
    { symbol "odoo.models.BaseModel.name_get" "17.0" (some "name_get(self)") with
      status := "deprecated", replacementQname := some "odoo.models.BaseModel.display_name" },
    symbol "odoo.http.Response.render" "17.0" (some "render(self)"),
    symbol "odoo.tools.image_resize_image" "17.0" (some "image_resize_image(source)"),
    symbol "odoo.tools.SQL" "17.0" none]
  ofVersion := by simp [symbol]

def source18 : CoreSource where
  version := "18.0"
  parsed := [
    symbol "odoo.models.BaseModel.display_name" "18.0" none,
    symbol "odoo.http.Response.render" "18.0" (some "render(self, values)"),
    symbol "odoo.tools.render" "18.0" (some "render(self)"),
    { symbol "odoo.tools.image_resize_image" "18.0" (some "image_resize_image(source)") with
      status := "deprecated" },
    symbol "odoo.tools.SQL" "18.0" (some "class SQL")]
  ofVersion := by simp [symbol]

def indexed : CoreIndex := indexAll [source17, source18]

def verdict (name : String) : Verdict := (indexed.apiVersionDiff name "17.0" "18.0").verdict

/-- What the report says beside what the diff engine says: of a symbol that is replaced, of a name
that two symbols have, of a symbol whose signature is not known, and of one that is newly
deprecated. -/
theorem report_differs :
    (verdict "name_get" = .removed ∧ "odoo.models.BaseModel.name_get" ∉
      (computeDiff source17.symbols source18.symbols).removed.map (·.qualifiedName)) ∧
    (verdict "render" = .stable ∧
      (indexed.fetchCoreSymbol "render" "17.0").map (·.qualifiedName) ≠
        (indexed.fetchCoreSymbol "render" "18.0").map (·.qualifiedName)) ∧
    (verdict "SQL" = .stable ∧ (indexed.fetchCoreSymbol "SQL" "17.0").map (·.signature) ≠
      (indexed.fetchCoreSymbol "SQL" "18.0").map (·.signature)) ∧
    verdict "image_resize_image" = .stable ∧ "odoo.tools.image_resize_image" ∈
      (computeDiff source17.symbols source18.symbols).deprecated.map (·.qualifiedName) := by
  decide

theorem written : Written [source18, source17] indexed := by
  show Written [source17, source18].reverse (indexAll [source17, source18])
  apply written_indexAll
  intro c hc d hd hcd
  rcases List.mem_pair.mp hc with rfl | rfl <;> rcases List.mem_pair.mp hd with rfl | rfl
  · rfl
  · exact absurd hcd (by decide)
  · exact absurd hcd (by decide)
  · rfl

theorem name_get_agrees :
    verdict "name_get" = .removed ↔
      (∃ q, FindsSymbol "name_get" source17.symbols source18.symbols q) ∧
      ∀ q, FindsSymbol "name_get" source17.symbols source18.symbols q →
        q ∈ (computeDiff source17.symbols source18.symbols).removed.map (·.qualifiedName) ∨
        q ∈ (computeDiff source17.symbols source18.symbols).replaced.map Prod.fst :=
  (api_version_diff_agrees (written.holds (c := source17) (by simp))
    (written.holds (c := source18) (by simp)) (by simp [source17, source18]) "name_get").2.2.1

end NameGet
end OdooSemantic
