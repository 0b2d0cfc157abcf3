import OdooSemantic.Indexer.NodeTables
import OdooSemantic.Mcp.Listings

/-!
# From the sources to the listings

What `write_results` has written of fields and methods is what the listings find: for each name
that a model of a module declares there is one row, and it says what the last declaration said.
There are no others (`fieldsOf_writeResults`, `methodsOf_writeResults`).
-/

namespace OdooSemantic

open KeyedStore

/-! ## What is declared -/

/-- The fields of the results, in the order in which they are written. -/
def declaredFields (rs : List ParseResult) : List (MemberKey × FieldInfo) :=
  rs.flatMap fun r => r.models.flatMap fun m => m.fields.map fun f => (m.key.member f.name, f)

def declaredMethods (rs : List ParseResult) : List (MemberKey × MethodInfo) :=
  rs.flatMap fun r => r.models.flatMap fun m => m.methods.map fun f => (m.key.member f.name, f)

/-- The last declaration under a key. -/
def lastDeclared {L : Type} (k : MemberKey) (declared : List (MemberKey × L)) : Option L :=
  (lettersAt k declared).getLast?

section Merges

open CodeStmt

theorem flatMap_nothing {A B : Type} (as : List A) : (as.flatMap fun _ => ([] : List B)) = [] :=
  List.flatMap_eq_nil_iff.mpr fun _ _ => rfl

theorem fieldMerges_inheritStmts (m : ModelInfo) :
    (inheritStmts m).flatMap fieldMerges = [] ∧ (inheritStmts m).flatMap methodMerges = [] := by
  rw [List.flatMap_eq_nil_iff, List.flatMap_eq_nil_iff]
  constructor
  · intro st hst
    obtain ⟨p, -, rfl⟩ := List.mem_map.mp hst
    split <;> rfl
  · intro st hst
    obtain ⟨p, -, rfl⟩ := List.mem_map.mp hst
    split <;> rfl

theorem fieldMerges_modelStmts (m : ModelInfo) :
    (modelStmts m).flatMap fieldMerges = m.fields.map fun f => (m.key.member f.name, f) := by
  simp [modelStmts, (fieldMerges_inheritStmts m).1, List.flatMap_append, List.flatMap_assoc,
    fieldMerges, List.map_eq_flatMap, flatMap_nothing]

theorem methodMerges_modelStmts (m : ModelInfo) :
    (modelStmts m).flatMap methodMerges = m.methods.map fun f => (m.key.member f.name, f) := by
  simp [modelStmts, (fieldMerges_inheritStmts m).2, List.flatMap_append, List.flatMap_assoc,
    methodMerges, List.map_eq_flatMap, flatMap_nothing]

theorem fieldMerges_parseResultStmts (rs : List ParseResult) :
    (rs.flatMap parseResultStmts).flatMap fieldMerges = declaredFields rs := by
  simp [declaredFields, parseResultStmts, List.flatMap_assoc, List.flatMap_map, fieldMerges,
    fieldMerges_modelStmts, flatMap_nothing]

theorem methodMerges_parseResultStmts (rs : List ParseResult) :
    (rs.flatMap parseResultStmts).flatMap methodMerges = declaredMethods rs := by
  simp [declaredMethods, parseResultStmts, List.flatMap_assoc, List.flatMap_map, methodMerges,
    methodMerges_modelStmts, flatMap_nothing]

end Merges

/-! ## What is in the tables -/

section Tables

variable (ps : List String) (rs : List ParseResult) (g : Graph) (k : MemberKey)

/-- A later declaration covers an earlier one; the profiles have been added by then. -/
theorem fieldWrite_covers (f f' : FieldInfo) (o : Option FieldProps) :
    FieldProps.write ps f (some (FieldProps.write ps f' o)) = FieldProps.write ps f o := by
  simp [FieldProps.write, unionProfile_idem]

theorem methodWrite_covers (f f' : MethodInfo) (o : Option MethodProps) :
    MethodProps.write ps f (some (MethodProps.write ps f' o)) = MethodProps.write ps f o := by
  simp [MethodProps.write, unionProfile_idem]

theorem lookup_fields_writeResults : (writeResults ps rs g).fields.lookup k =
    ((lastDeclared k (declaredFields rs)).map fun f =>
      FieldProps.write ps f (g.fields.lookup k)).or (g.fields.lookup k) := by
  have hfields : (writeResults ps rs g).fields =
      mergeList (FieldProps.write ps) (declaredFields rs) g.fields := by
    rw [writeResults_eq, ← fieldMerges_parseResultStmts]
    exact foldl_eq_mergeList _ Graph.fields (fun st _ g => CodeStmt.fields_exec ps g st) g
  rw [hfields, lookup_mergeList, runLetters_of_covers _ (fieldWrite_covers ps)]
  rfl

theorem lookup_methods_writeResults : (writeResults ps rs g).methods.lookup k =
    ((lastDeclared k (declaredMethods rs)).map fun f =>
      MethodProps.write ps f (g.methods.lookup k)).or (g.methods.lookup k) := by
  have hmethods : (writeResults ps rs g).methods =
      mergeList (MethodProps.write ps) (declaredMethods rs) g.methods := by
    rw [writeResults_eq, ← methodMerges_parseResultStmts]
    exact foldl_eq_mergeList _ Graph.methods (fun st _ g => CodeStmt.methods_exec ps g st) g
  rw [hmethods, lookup_mergeList, runLetters_of_covers _ (methodWrite_covers ps)]
  rfl

end Tables

/-! ## What is listed -/

section Listed

variable {V : Type}

/-- The rows of a table. -/
theorem mem_entries_iff {t : Store MemberKey V} {e : MemberKey × V} :
    e ∈ t.entries.map (fun e => (e.1, e.2)) ↔ t.lookup e.1 = some e.2 := by
  rw [List.mem_map, ← Option.mem_def, AList.mem_lookup_iff]
  constructor
  · intro h
    obtain ⟨e', he', rfl⟩ := h
    exact he'
  · exact fun h => ⟨⟨e.1, e.2⟩, h, rfl⟩

/-- No two rows of a table have a key in common, nor have those that are left of it. -/
theorem nodup_keys_filter (t : Store MemberKey V) (p : MemberKey × V → Bool) :
    (((t.entries.map fun e => (e.1, e.2)).filter p).map (·.1)).Nodup := by
  have hall : ((t.entries.map fun e => (e.1, e.2)).map (·.1)).Nodup := by
    rw [List.map_map]
    exact t.nodupKeys
  exact hall.sublist (List.filter_sublist.map _)

/-- What an empty table has after the writing. -/
theorem or_none_eq_some {L : Type} {o : Option L} {f : L → V} {x : V} :
    (o.map f).or none = some x ↔ ∃ l, o = some l ∧ x = f l := by
  rw [Option.or_none, Option.map_eq_some_iff]
  exact exists_congr fun l => and_congr_right fun _ => eq_comm

variable {ps : List String} {rs : List ParseResult} {k : MemberKey}

theorem exists_lastDeclared {L : Type} {declared : List (MemberKey × L)} :
    (∃ l, lastDeclared k declared = some l) ↔ ∃ l, (k, l) ∈ declared := by
  unfold lastDeclared
  constructor
  · intro h
    obtain ⟨l, hl⟩ := h
    exact ⟨l, mem_lettersAt.mp (List.mem_of_getLast? hl)⟩
  · intro h
    obtain ⟨l, hl⟩ := h
    have hne : lettersAt k declared ≠ [] := List.ne_nil_of_mem (mem_lettersAt.mpr hl)
    exact ⟨_, List.getLast?_eq_some_getLast hne⟩

/-- In a graph that was empty, a field is what it was declared as last. -/
theorem lookup_fields_indexed {p : FieldProps} : (writeResults ps rs {}).fields.lookup k = some p ↔
    ∃ info, lastDeclared k (declaredFields rs) = some info ∧ p = FieldProps.write ps info none := by
  rw [lookup_fields_writeResults, show ({} : Graph).fields.lookup k = none from rfl]
  exact or_none_eq_some

theorem lookup_methods_indexed {p : MethodProps} :
    (writeResults ps rs {}).methods.lookup k = some p ↔
      ∃ info, lastDeclared k (declaredMethods rs) = some info ∧
        p = MethodProps.write ps info none := by
  rw [lookup_methods_writeResults, show ({} : Graph).methods.lookup k = none from rfl]
  exact or_none_eq_some

variable (ps rs) (model v : String)
  (profileName : Option String)

/-- The profile that is asked for is one of those that the results are written for. -/
theorem inProfile_written :
    inProfile profileName (some (unionProfile none ps)) = true ↔ ∀ p ∈ profileName, p ∈ ps := by
  cases profileName <;> simp [inProfile, unionProfile]

/-- **The fields that are listed are those that are declared**, each once and as it was declared
    last. -/
theorem fieldsOf_writeResults :
    (((writeResults ps rs {}).fieldsOf model v none none profileName).map (·.1)).Nodup ∧
      ∀ f, f ∈ (writeResults ps rs {}).fieldsOf model v none none profileName ↔
        (f.1.model = model ∧ f.1.odooVersion = v ∧ f.1.module ≠ unresolvedModule ∧
          ∀ p ∈ profileName, p ∈ ps) ∧
        ∃ info, lastDeclared f.1 (declaredFields rs) = some info ∧
          f.2 = FieldProps.write ps info none := by
  refine ⟨nodup_keys_filter _ _, fun f => ?_⟩
  rw [Graph.fieldsOf, List.mem_filter, mem_entries_iff, lookup_fields_indexed]
  constructor
  · intro h
    obtain ⟨hdeclared, hfits⟩ := h
    simp only [Bool.and_eq_true, decide_eq_true_eq, matchesParam, Option.all_none] at hfits
    obtain ⟨⟨⟨⟨⟨hmodel, hversion⟩, hprofile⟩, -⟩, -⟩, hmodule⟩ := hfits
    refine ⟨⟨hmodel, hversion, hmodule, ?_⟩, hdeclared⟩
    obtain ⟨info, -, hprops⟩ := hdeclared
    rw [hprops] at hprofile
    exact (inProfile_written ps profileName).mp hprofile
  · intro h
    obtain ⟨⟨hmodel, hversion, hmodule, hprofile⟩, hdeclared⟩ := h
    refine ⟨hdeclared, ?_⟩
    obtain ⟨info, -, hprops⟩ := hdeclared
    simp only [Bool.and_eq_true, decide_eq_true_eq, matchesParam, Option.all_none]
    refine ⟨⟨⟨⟨⟨hmodel, hversion⟩, ?_⟩, trivial⟩, trivial⟩, hmodule⟩
    rw [hprops]
    exact (inProfile_written ps profileName).mpr hprofile

/-- **… and so are the methods.** -/
theorem methodsOf_writeResults :
    (((writeResults ps rs {}).methodsOf model v none profileName).map (·.1)).Nodup ∧
      ∀ m, m ∈ (writeResults ps rs {}).methodsOf model v none profileName ↔
        (m.1.model = model ∧ m.1.odooVersion = v ∧ m.1.module ≠ unresolvedModule ∧
          ∀ p ∈ profileName, p ∈ ps) ∧
        ∃ info, lastDeclared m.1 (declaredMethods rs) = some info ∧
          m.2 = MethodProps.write ps info none := by
  refine ⟨nodup_keys_filter _ _, fun m => ?_⟩
  rw [Graph.methodsOf, List.mem_filter, mem_entries_iff, lookup_methods_indexed]
  constructor
  · intro h
    obtain ⟨hdeclared, hfits⟩ := h
    simp only [Bool.and_eq_true, decide_eq_true_eq, matchesParam, Option.all_none] at hfits
    obtain ⟨⟨⟨⟨hmodel, hversion⟩, hprofile⟩, -⟩, hmodule⟩ := hfits
    refine ⟨⟨hmodel, hversion, hmodule, ?_⟩, hdeclared⟩
    obtain ⟨info, -, hprops⟩ := hdeclared
    rw [hprops] at hprofile
    exact (inProfile_written ps profileName).mp hprofile
  · intro h
    obtain ⟨⟨hmodel, hversion, hmodule, hprofile⟩, hdeclared⟩ := h
    refine ⟨hdeclared, ?_⟩
    obtain ⟨info, -, hprops⟩ := hdeclared
    simp only [Bool.and_eq_true, decide_eq_true_eq, matchesParam, Option.all_none]
    refine ⟨⟨⟨⟨hmodel, hversion⟩, ?_⟩, trivial⟩, hmodule⟩
    rw [hprops]
    exact (inProfile_written ps profileName).mpr hprofile

end Listed

end OdooSemantic
