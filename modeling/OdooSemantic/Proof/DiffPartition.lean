import Mathlib.Data.List.Nodup
import OdooSemantic.Indexer.CliFlags
import OdooSemantic.Indexer.CoreSymbols

/-!
# The classes of a comparison

Each symbol of the two versions is in one class. That a symbol was replaced is said once for each time
that the old list has the symbol with the hint, which is once for a symbol that is listed once.

The flags are compared by their names, so of the flags of one name only the last is in a class, unless
the name is gone and the others have hints that hold (`diff_partition_iff`).
-/

namespace OdooSemantic

/-- In one of the lists and not in another. -/
def InOneOf {κ : Type} [DecidableEq κ] (classes : List (List κ)) (k : κ) : Prop :=
  (classes.filter (k ∈ ·)).length = 1

instance {κ : Type} [DecidableEq κ] (classes : List (List κ)) (k : κ) :
    Decidable (InOneOf classes k) := inferInstanceAs (Decidable (_ = 1))

/-! ## What is replaced -/

section Replaced

variable {A : Type} (name : A → String) (hint : A → Option String) (new : List A)

/-- Gone, with a hint to something that is there. -/
def IsReplaced (a : A) : Prop :=
  name a ∉ new.map name ∧ ∃ r, truthy (hint a) = some r ∧ r ∈ new.map name

/-- The pair that is noted for an item of the old list. -/
def replacement (a : A) : Option (String × String) :=
  (truthy (hint a)).bind fun r =>
    if name a ∉ new.map name ∧ r ∈ new.map name then some (name a, r) else none

variable {name hint new} {a b : A} {pair : String × String}

theorem replacement_eq_some_iff : replacement name hint new a = some pair ↔
    name a = pair.1 ∧ truthy (hint a) = some pair.2 ∧ name a ∉ new.map name ∧
      pair.2 ∈ new.map name := by
  unfold replacement
  rw [Option.bind_eq_some_iff]
  constructor
  · rintro ⟨r, hr, h⟩
    split at h
    · rename_i hc
      obtain rfl := Option.some.inj h
      exact ⟨rfl, hr, hc⟩
    · exact absurd h (by simp)
  · rintro ⟨hname, hr, hc⟩
    exact ⟨pair.2, hr, by rw [if_pos hc, hname]⟩

theorem exists_replacement_iff :
    (∃ pair, replacement name hint new a = some pair) ↔ IsReplaced name hint new a := by
  constructor
  · rintro ⟨pair, h⟩
    obtain ⟨-, hr, hgone, htarget⟩ := replacement_eq_some_iff.mp h
    exact ⟨hgone, pair.2, hr, htarget⟩
  · rintro ⟨hgone, r, hr, htarget⟩
    exact ⟨(name a, r), replacement_eq_some_iff.mpr ⟨rfl, hr, hgone, htarget⟩⟩

theorem eq_of_truthy {s : Option String} {r : String} (h : truthy s = some r) : s = some r :=
  (Option.filter_eq_some_iff.mp h).1

/-- No pair twice: nothing is listed twice with a hint that holds. -/
theorem nodup_replaced_iff (old : List A) : (old.filterMap (replacement name hint new)).Nodup ↔
    old.Pairwise fun a b => ¬ (name a = name b ∧ hint a = hint b ∧ IsReplaced name hint new a) := by
  rw [List.Nodup, List.pairwise_filterMap]
  refine List.Pairwise.iff fun a b => ?_
  constructor
  · rintro h ⟨hname, hhint, hreplaced⟩
    obtain ⟨pair, hpair⟩ := exists_replacement_iff.mpr hreplaced
    have hpair' : replacement name hint new b = some pair := by
      rw [← hpair, replacement, replacement, hname, hhint]
    exact h pair hpair pair hpair' rfl
  · rintro h pair ha pair' hb rfl
    refine h ⟨?_, ?_, exists_replacement_iff.mp ⟨pair, ha⟩⟩
    · rw [(replacement_eq_some_iff.mp ha).1, (replacement_eq_some_iff.mp hb).1]
    · rw [eq_of_truthy (replacement_eq_some_iff.mp ha).2.1,
        eq_of_truthy (replacement_eq_some_iff.mp hb).2.1]

end Replaced

/-! ## Symbols -/

section Symbols

variable {old new : List CoreSymbolInfo} {q : String} {o n : CoreSymbolInfo}

/-- Each name in one class, and each replacement once, by something that is there. -/
structure SymbolPartition (old new : List CoreSymbolInfo) (d : DiffResult) : Prop where
  ofOld : ∀ q ∈ old.map (·.qualifiedName),
    InOneOf [d.removed.map (·.qualifiedName), d.replaced.map Prod.fst,
      d.deprecated.map (·.qualifiedName), d.stable.map (·.1.qualifiedName)] q
  ofNew : ∀ q ∈ new.map (·.qualifiedName),
    InOneOf [d.added.map (·.qualifiedName), d.deprecated.map (·.qualifiedName),
      d.stable.map (·.2.qualifiedName)] q
  once : d.replaced.Nodup
  target : ∀ p ∈ d.replaced, p.2 ∈ new.map (·.qualifiedName)

/-- No symbol that was replaced is listed twice with the same hint. -/
def ReplacedOnce (old new : List CoreSymbolInfo) : Prop :=
  old.Pairwise fun s t => ¬ (s.qualifiedName = t.qualifiedName ∧
    s.replacementQname = t.replacementQname ∧
    IsReplaced CoreSymbolInfo.qualifiedName CoreSymbolInfo.replacementQname new s)

theorem byQname_eq_collect (symbols : List CoreSymbolInfo) :
    byQname symbols = Dict.collect CoreSymbolInfo.qualifiedName symbols := rfl

theorem replaced_computeDiff (old new : List CoreSymbolInfo) : (computeDiff old new).replaced =
    old.filterMap (replacement CoreSymbolInfo.qualifiedName CoreSymbolInfo.replacementQname new) := by
  unfold computeDiff replacement
  simp only [byQname_eq_collect, Dict.get?_collect_eq_none_iff, Dict.get?_collect_ne_none_iff]

theorem get?_byQname_ne_none_iff : (byQname new).get? q ≠ none ↔ q ∈ new.map (·.qualifiedName) :=
  Dict.get?_collect_ne_none_iff

theorem exists_get?_byQname (h : q ∈ new.map (·.qualifiedName)) :
    ∃ n, (byQname new).get? q = some n ∧ n.qualifiedName = q := by
  obtain ⟨n, hn⟩ := Option.ne_none_iff_exists'.mp (get?_byQname_ne_none_iff.mpr h)
  exact ⟨n, hn, (mem_of_get?_byQname hn).2⟩

theorem get?_of_mem_replaced (h : q ∈ (computeDiff old new).replaced.map Prod.fst) :
    (byQname new).get? q = none := by
  obtain ⟨names, hnames, rfl⟩ := List.mem_map.mp h
  obtain ⟨s, -, -, -, hgone, -⟩ := mem_replaced.mp hnames
  exact hgone

theorem get?_of_mem_removed (h : q ∈ (computeDiff old new).removed.map (·.qualifiedName)) :
    (byQname new).get? q = none := by
  obtain ⟨o, ho, rfl⟩ := List.mem_map.mp h
  exact (mem_removed.mp ho).2.1

theorem get?_of_mem_added (h : q ∈ (computeDiff old new).added.map (·.qualifiedName)) :
    (byQname old).get? q = none := by
  obtain ⟨n, hn, rfl⟩ := List.mem_map.mp h
  exact (mem_added.mp hn).2

theorem mem_deprecated_names : q ∈ (computeDiff old new).deprecated.map (·.qualifiedName) ↔
    ∃ o n, (byQname old).get? q = some o ∧ (byQname new).get? q = some n ∧
      isDeprecation o n = true := by
  rw [List.mem_map]
  constructor
  · rintro ⟨n, hn, rfl⟩
    obtain ⟨hget, o, ho, hdep⟩ := mem_deprecated.mp hn
    exact ⟨o, n, ho, hget, hdep⟩
  · rintro ⟨o, n, ho, hn, hdep⟩
    obtain rfl := (mem_of_get?_byQname hn).2
    exact ⟨n, mem_deprecated.mpr ⟨hn, o, ho, hdep⟩, rfl⟩

theorem mem_stable_names : q ∈ (computeDiff old new).stable.map (·.2.qualifiedName) ↔
    ∃ o n, (byQname old).get? q = some o ∧ (byQname new).get? q = some n ∧
      isDeprecation o n = false := by
  rw [List.mem_map]
  constructor
  · rintro ⟨p, hp, rfl⟩
    obtain ⟨hn, ho, hdep⟩ := mem_stable.mp hp
    exact ⟨p.1, p.2, ho, hn, hdep⟩
  · rintro ⟨o, n, ho, hn, hdep⟩
    obtain rfl := (mem_of_get?_byQname hn).2
    exact ⟨(o, n), mem_stable.mpr ⟨hn, ho, hdep⟩, rfl⟩

/-- The two symbols of a pair have one name. -/
theorem stable_old_names : (computeDiff old new).stable.map (·.1.qualifiedName) =
    (computeDiff old new).stable.map (·.2.qualifiedName) := by
  refine List.map_congr_left fun p hp => ?_
  exact (mem_of_get?_byQname (mem_stable.mp hp).2.1).2

/-- A name of both lists is deprecated or stable. -/
theorem deprecated_or_stable (ho : (byQname old).get? q = some o)
    (hn : (byQname new).get? q = some n) :
    (q ∈ (computeDiff old new).deprecated.map (·.qualifiedName) ↔ isDeprecation o n = true) ∧
      (q ∈ (computeDiff old new).stable.map (·.2.qualifiedName) ↔ isDeprecation o n = false) := by
  rw [mem_deprecated_names, mem_stable_names, ho, hn]
  simp

theorem inOneOf_old (hq : q ∈ old.map (·.qualifiedName)) :
    InOneOf [(computeDiff old new).removed.map (·.qualifiedName),
      (computeDiff old new).replaced.map Prod.fst,
      (computeDiff old new).deprecated.map (·.qualifiedName),
      (computeDiff old new).stable.map (·.1.qualifiedName)] q := by
  obtain ⟨o, ho, hname⟩ := exists_get?_byQname hq
  rw [stable_old_names]
  cases hn : (byQname new).get? q with
  | some n =>
    have hremoved : q ∉ (computeDiff old new).removed.map (·.qualifiedName) := fun h => by
      simp [get?_of_mem_removed h] at hn
    have hreplaced : q ∉ (computeDiff old new).replaced.map Prod.fst := fun h => by
      simp [get?_of_mem_replaced h] at hn
    obtain ⟨hdep, hstable⟩ := deprecated_or_stable ho hn
    cases hd : isDeprecation o n <;> simp [InOneOf, hremoved, hreplaced,
      hdep, hstable, hd]
  | none =>
    have hdep : q ∉ (computeDiff old new).deprecated.map (·.qualifiedName) := by
      rw [mem_deprecated_names, hn]
      simp
    have hstable : q ∉ (computeDiff old new).stable.map (·.2.qualifiedName) := by
      rw [mem_stable_names, hn]
      simp
    have hremoved : q ∈ (computeDiff old new).removed.map (·.qualifiedName) ↔
        q ∉ (computeDiff old new).replaced.map Prod.fst := by
      subst hname
      constructor
      · intro h
        obtain ⟨o', ho', heq⟩ := List.mem_map.mp h
        exact heq ▸ (mem_removed.mp ho').2.2
      · exact fun h => List.mem_map_of_mem (mem_removed.mpr ⟨ho, hn, h⟩)
    by_cases hreplaced : q ∈ (computeDiff old new).replaced.map Prod.fst <;>
      simp [InOneOf, hdep, hstable, hremoved, hreplaced]

theorem inOneOf_new (hq : q ∈ new.map (·.qualifiedName)) :
    InOneOf [(computeDiff old new).added.map (·.qualifiedName),
      (computeDiff old new).deprecated.map (·.qualifiedName),
      (computeDiff old new).stable.map (·.2.qualifiedName)] q := by
  obtain ⟨n, hn, hname⟩ := exists_get?_byQname hq
  cases ho : (byQname old).get? q with
  | some o =>
    have hadded : q ∉ (computeDiff old new).added.map (·.qualifiedName) := fun h => by
      simp [get?_of_mem_added h] at ho
    obtain ⟨hdep, hstable⟩ := deprecated_or_stable ho hn
    cases hd : isDeprecation o n <;> simp [InOneOf, hadded, hdep, hstable, hd]
  | none =>
    have hadded : q ∈ (computeDiff old new).added.map (·.qualifiedName) := by
      subst hname
      exact List.mem_map_of_mem (mem_added.mpr ⟨hn, ho⟩)
    have hdep : q ∉ (computeDiff old new).deprecated.map (·.qualifiedName) := by
      rw [mem_deprecated_names, ho]
      simp
    have hstable : q ∉ (computeDiff old new).stable.map (·.2.qualifiedName) := by
      rw [mem_stable_names, ho]
      simp
    simp [InOneOf, hdep, hstable, hadded]

theorem symbolPartition_iff :
    SymbolPartition old new (computeDiff old new) ↔ ReplacedOnce old new := by
  have honce : (computeDiff old new).replaced.Nodup ↔ ReplacedOnce old new := by
    rw [replaced_computeDiff]
    exact nodup_replaced_iff old
  constructor
  · exact fun h => honce.mp h.once
  · refine fun h => ⟨fun q => inOneOf_old, fun q => inOneOf_new, honce.mpr h, fun p hp => ?_⟩
    obtain ⟨s, -, -, -, -, htarget⟩ := mem_replaced.mp hp
    exact get?_byQname_ne_none_iff.mp htarget

end Symbols

/-! ## Flags -/

section Flags

variable {old new flags : List CLIFlagInfo} {f o n : CLIFlagInfo}

/-- `IsReplaced`, of a flag. -/
def FlagReplaced (new : List CLIFlagInfo) (f : CLIFlagInfo) : Prop :=
  IsReplaced CLIFlagInfo.flagName CLIFlagInfo.replacementFlagName new f

/-- Each flag of a command in one class. A flag is replaced if the pair of its own hint is noted. -/
structure FlagPartition (old new : List CLIFlagInfo) (d : CLIFlagDiff) : Prop where
  ofOld : ∀ i ∈ old.map (·.id), InOneOf [d.removed.map (·.id),
    (old.filter fun f => (truthy f.replacementFlagName).any fun r =>
      (f.flagName, r) ∈ d.replaced).map (·.id),
    d.stable.map (·.1.id)] i
  ofNew : ∀ i ∈ new.map (·.id), InOneOf [d.added.map (·.id), d.stable.map (·.2.id)] i
  same : ∀ p ∈ d.stable, p.1.id = p.2.id
  once : d.replaced.Nodup
  target : ∀ p ∈ d.replaced, p.2 ∈ new.map (·.flagName)

/-- What two flags of one name have to have in common. -/
structure FlagsApart (old new : List CLIFlagInfo) : Prop where
  news : ∀ f ∈ new, ∀ g ∈ new, f.flagName = g.flagName → f.commandName = g.commandName
  kept : ∀ f ∈ old, ∀ g ∈ new, f.flagName = g.flagName → f.commandName = g.commandName
  /-- Of a name that is gone there is one flag, or each one was replaced. -/
  dropped : ∀ f ∈ old, ∀ g ∈ old, f.flagName = g.flagName → f.flagName ∉ new.map (·.flagName) →
    f.commandName ≠ g.commandName → ∃ f' ∈ old, f'.id = f.id ∧ FlagReplaced new f'
  once : old.Pairwise fun f g => ¬ (f.flagName = g.flagName ∧
    f.replacementFlagName = g.replacementFlagName ∧ FlagReplaced new f)

theorem replaced_computeCliFlagDiff (old new : List CLIFlagInfo) :
    (computeCliFlagDiff old new).replaced =
      old.filterMap (replacement CLIFlagInfo.flagName CLIFlagInfo.replacementFlagName new) := by
  unfold computeCliFlagDiff replacement
  simp only [Dict.get?_collect_eq_none_iff, Dict.get?_collect_ne_none_iff]

theorem mem_flags_replaced {pair : String × String} :
    pair ∈ (computeCliFlagDiff old new).replaced ↔
      ∃ f ∈ old, f.flagName = pair.1 ∧ truthy f.replacementFlagName = some pair.2 ∧
        f.flagName ∉ new.map (·.flagName) ∧ pair.2 ∈ new.map (·.flagName) := by
  rw [replaced_computeCliFlagDiff, List.mem_filterMap]
  exact exists_congr fun f => and_congr_right fun _ => replacement_eq_some_iff

theorem mem_flags_added : n ∈ (computeCliFlagDiff old new).added ↔
    (Dict.collect CLIFlagInfo.flagName new).get? n.flagName = some n ∧
      n.flagName ∉ old.map (·.flagName) := by
  rw [computeCliFlagDiff, List.mem_filter, Dict.mem_values_collect, decide_eq_true_iff,
    Dict.get?_collect_eq_none_iff]

theorem mem_flags_stable {p : CLIFlagInfo × CLIFlagInfo} :
    p ∈ (computeCliFlagDiff old new).stable ↔
      (Dict.collect CLIFlagInfo.flagName new).get? p.2.flagName = some p.2 ∧
        (Dict.collect CLIFlagInfo.flagName old).get? p.2.flagName = some p.1 := by
  rw [computeCliFlagDiff, List.mem_filterMap]
  constructor
  · rintro ⟨n, hn, hp⟩
    obtain ⟨o, ho, rfl⟩ := Option.map_eq_some_iff.mp hp
    exact ⟨Dict.mem_values_collect.mp hn, ho⟩
  · rintro ⟨hn, ho⟩
    exact ⟨p.2, Dict.mem_values_collect.mpr hn, by rw [ho]; rfl⟩

theorem mem_flags_removed : o ∈ (computeCliFlagDiff old new).removed ↔
    (Dict.collect CLIFlagInfo.flagName old).get? o.flagName = some o ∧
      o.flagName ∉ new.map (·.flagName) ∧
      ∀ f ∈ old, f.flagName = o.flagName → ¬ FlagReplaced new f := by
  have hnone : o.flagName ∉ (computeCliFlagDiff old new).replaced.map Prod.fst ↔
      ∀ f ∈ old, f.flagName = o.flagName → ¬ FlagReplaced new f := by
    rw [List.mem_map]
    constructor
    · rintro h f hf hname ⟨hgone, r, hr, htarget⟩
      exact h ⟨(f.flagName, r), mem_flags_replaced.mpr ⟨f, hf, rfl, hr, hgone, htarget⟩, hname⟩
    · rintro h ⟨pair, hpair, hname⟩
      obtain ⟨f, hf, hfst, hr, hgone, htarget⟩ := mem_flags_replaced.mp hpair
      exact h f hf (hfst.trans hname) ⟨hgone, pair.2, hr, htarget⟩
  rw [← hnone, computeCliFlagDiff, List.mem_filter, Dict.mem_values_collect, decide_eq_true_iff,
    Dict.get?_collect_eq_none_iff]

/-- The flag is what its name stands for. -/
def IsLast (flags : List CLIFlagInfo) (i : String × String) : Prop :=
  ∃ f, (Dict.collect CLIFlagInfo.flagName flags).get? i.1 = some f ∧ f.id = i

theorem exists_last (h : f ∈ flags) :
    ∃ g ∈ flags, (Dict.collect CLIFlagInfo.flagName flags).get? f.flagName = some g ∧
      g.flagName = f.flagName := by
  have hsome : (Dict.collect CLIFlagInfo.flagName flags).get? f.flagName ≠ none :=
    Dict.get?_collect_ne_none_iff.mpr (List.mem_map_of_mem h)
  obtain ⟨g, hg⟩ := Option.ne_none_iff_exists'.mp hsome
  obtain ⟨hmem, hname⟩ := Dict.mem_of_get?_collect hg
  exact ⟨g, hmem, hg, hname⟩

theorem isLast_of_command (h : f ∈ flags)
    (hall : ∀ g ∈ flags, g.flagName = f.flagName → g.commandName = f.commandName) :
    IsLast flags f.id := by
  obtain ⟨g, hmem, hg, hname⟩ := exists_last h
  exact ⟨g, hg, Prod.ext hname (hall g hmem hname)⟩

theorem IsLast.command_eq {g : CLIFlagInfo} (hf : IsLast flags f.id) (hg : IsLast flags g.id)
    (hname : f.flagName = g.flagName) : f.commandName = g.commandName := by
  obtain ⟨f', hf', hfid⟩ := hf
  obtain ⟨g', hg', hgid⟩ := hg
  obtain rfl : f' = g' := Option.some.inj (hf'.symm.trans ((congrArg _ hname).trans hg'))
  exact congrArg Prod.snd (hfid.symm.trans hgid)

/-! The classes, of the flag of a command. -/

variable {i : String × String}

theorem mem_added_ids : i ∈ (computeCliFlagDiff old new).added.map (·.id) ↔
    IsLast new i ∧ i.1 ∉ old.map (·.flagName) := by
  rw [List.mem_map]
  constructor
  · rintro ⟨n, hn, rfl⟩
    obtain ⟨hget, hgone⟩ := mem_flags_added.mp hn
    exact ⟨⟨n, hget, rfl⟩, hgone⟩
  · rintro ⟨⟨n, hget, rfl⟩, hgone⟩
    exact ⟨n, mem_flags_added.mpr ⟨hget, hgone⟩, rfl⟩

theorem mem_stable_new_ids : i ∈ (computeCliFlagDiff old new).stable.map (·.2.id) ↔
    IsLast new i ∧ i.1 ∈ old.map (·.flagName) := by
  rw [List.mem_map]
  constructor
  · rintro ⟨p, hp, rfl⟩
    obtain ⟨hn, ho⟩ := mem_flags_stable.mp hp
    obtain ⟨hmem, hname⟩ := Dict.mem_of_get?_collect ho
    exact ⟨⟨p.2, hn, rfl⟩, List.mem_map.mpr ⟨p.1, hmem, hname⟩⟩
  · rintro ⟨⟨n, hn, rfl⟩, hold⟩
    obtain ⟨f, hf, hname⟩ := List.mem_map.mp hold
    obtain ⟨o, -, ho, -⟩ := exists_last hf
    have heq : f.flagName = n.flagName := hname
    exact ⟨(o, n), mem_flags_stable.mpr ⟨hn, heq ▸ ho⟩, rfl⟩

theorem mem_stable_old_ids : i ∈ (computeCliFlagDiff old new).stable.map (·.1.id) ↔
    IsLast old i ∧ i.1 ∈ new.map (·.flagName) := by
  rw [List.mem_map]
  constructor
  · rintro ⟨p, hp, rfl⟩
    obtain ⟨hn, ho⟩ := mem_flags_stable.mp hp
    have hname : p.1.flagName = p.2.flagName := (Dict.mem_of_get?_collect ho).2
    refine ⟨⟨p.1, (congrArg _ hname).trans ho, rfl⟩, List.mem_map.mpr ⟨p.2, ?_, hname.symm⟩⟩
    exact (Dict.mem_of_get?_collect hn).1
  · rintro ⟨⟨o, ho, rfl⟩, hnew⟩
    obtain ⟨f, hf, hname⟩ := List.mem_map.mp hnew
    obtain ⟨n, -, hn, hn'⟩ := exists_last hf
    have heq : n.flagName = o.flagName := hn'.trans hname
    exact ⟨(o, n), mem_flags_stable.mpr ⟨hn' ▸ hn, (congrArg _ heq).trans ho⟩, rfl⟩

theorem mem_removed_ids : i ∈ (computeCliFlagDiff old new).removed.map (·.id) ↔
    IsLast old i ∧ i.1 ∉ new.map (·.flagName) ∧
      ∀ f ∈ old, f.flagName = i.1 → ¬ FlagReplaced new f := by
  rw [List.mem_map]
  constructor
  · rintro ⟨o, ho, rfl⟩
    obtain ⟨hget, hrest⟩ := mem_flags_removed.mp ho
    exact ⟨⟨o, hget, rfl⟩, hrest⟩
  · rintro ⟨⟨o, hget, rfl⟩, hrest⟩
    exact ⟨o, mem_flags_removed.mpr ⟨hget, hrest⟩, rfl⟩

theorem mem_replaced_ids : i ∈ (old.filter fun f => (truthy f.replacementFlagName).any fun r =>
      (f.flagName, r) ∈ (computeCliFlagDiff old new).replaced).map (·.id) ↔
    ∃ f ∈ old, f.id = i ∧ FlagReplaced new f := by
  simp only [List.mem_map, List.mem_filter, Option.any_eq_true, decide_eq_true_iff]
  constructor
  · rintro ⟨f, ⟨hf, r, hr, hpair⟩, rfl⟩
    obtain ⟨g, -, hname, -, hgone, htarget⟩ := mem_flags_replaced.mp hpair
    have heq : g.flagName = f.flagName := hname
    exact ⟨f, hf, rfl, heq ▸ hgone, r, hr, htarget⟩
  · rintro ⟨f, hf, rfl, hgone, r, hr, htarget⟩
    exact ⟨f, ⟨hf, r, hr, mem_flags_replaced.mpr ⟨f, hf, rfl, hr, hgone, htarget⟩⟩, rfl⟩

/-- A flag of the new list is in a class if its name stands for it. -/
theorem inOneOf_new_flags_iff :
    InOneOf [(computeCliFlagDiff old new).added.map (·.id),
      (computeCliFlagDiff old new).stable.map (·.2.id)] i ↔ IsLast new i := by
  have hadded := @mem_added_ids old new i
  have hstable := @mem_stable_new_ids old new i
  by_cases hold : i.1 ∈ old.map (·.flagName) <;>
    simp only [hold, not_true, not_false_iff, and_true, and_false] at hadded hstable <;>
    by_cases hlast : IsLast new i <;> simp [InOneOf, hadded, hstable, hlast]

/-- Of a name that is still there, an old flag is stable or in no class. -/
theorem inOneOf_kept_iff (hnew : i.1 ∈ new.map (·.flagName)) :
    InOneOf [(computeCliFlagDiff old new).removed.map (·.id),
      (old.filter fun f => (truthy f.replacementFlagName).any fun r =>
        (f.flagName, r) ∈ (computeCliFlagDiff old new).replaced).map (·.id),
      (computeCliFlagDiff old new).stable.map (·.1.id)] i ↔ IsLast old i := by
  have hremoved : i ∉ (computeCliFlagDiff old new).removed.map (·.id) := fun h =>
    (mem_removed_ids.mp h).2.1 hnew
  have hreplaced : ¬ ∃ f ∈ old, f.id = i ∧ FlagReplaced new f := by
    rintro ⟨f, -, rfl, hgone, -⟩
    exact hgone hnew
  rw [← mem_replaced_ids] at hreplaced
  have hstable := @mem_stable_old_ids old new i
  simp only [hnew, and_true] at hstable
  by_cases hlast : IsLast old i <;> simp [InOneOf, hremoved, hreplaced, hstable, hlast]

/-- Of a name that is gone, it was replaced, or it is removed if nothing of the name was. -/
theorem inOneOf_gone_iff (hgone : i.1 ∉ new.map (·.flagName)) :
    InOneOf [(computeCliFlagDiff old new).removed.map (·.id),
      (old.filter fun f => (truthy f.replacementFlagName).any fun r =>
        (f.flagName, r) ∈ (computeCliFlagDiff old new).replaced).map (·.id),
      (computeCliFlagDiff old new).stable.map (·.1.id)] i ↔
    (∃ f ∈ old, f.id = i ∧ FlagReplaced new f) ∨
      IsLast old i ∧ ∀ f ∈ old, f.flagName = i.1 → ¬ FlagReplaced new f := by
  have hstable : i ∉ (computeCliFlagDiff old new).stable.map (·.1.id) := fun h =>
    hgone (mem_stable_old_ids.mp h).2
  have hremoved := @mem_removed_ids old new i
  simp only [hgone, not_false_iff, true_and] at hremoved
  have hreplaced := @mem_replaced_ids old new i
  by_cases h : ∃ f ∈ old, f.id = i ∧ FlagReplaced new f
  · have hnot : ¬ (IsLast old i ∧ ∀ f ∈ old, f.flagName = i.1 → ¬ FlagReplaced new f) := by
      obtain ⟨f, hf, hid, hr⟩ := h
      exact fun hall => hall.2 f hf (congrArg Prod.fst hid) hr
    rw [← hremoved] at hnot ⊢
    rw [← hreplaced] at h ⊢
    simp [InOneOf, hstable, hnot, h]
  · rw [← hremoved]
    rw [← hreplaced] at h ⊢
    by_cases hr : i ∈ (computeCliFlagDiff old new).removed.map (·.id) <;>
      simp [InOneOf, hstable, h, hr]

theorem FlagPartition.flagsApart (h : FlagPartition old new (computeCliFlagDiff old new)) :
    FlagsApart old new := by
  have hnews : ∀ f ∈ new, IsLast new f.id := fun f hf =>
    inOneOf_new_flags_iff.mp (h.ofNew f.id (List.mem_map_of_mem hf))
  constructor
  · intro f hf g hg hname
    exact (hnews f hf).command_eq (hnews g hg) hname
  · intro f hf g hg hname
    have hthere : f.flagName ∈ new.map (·.flagName) := List.mem_map.mpr ⟨g, hg, hname.symm⟩
    obtain ⟨o, ho, hoid⟩ := (inOneOf_kept_iff hthere).mp (h.ofOld f.id (List.mem_map_of_mem hf))
    obtain ⟨n, hn, hnid⟩ := hnews g hg
    have hkey : n.flagName = f.flagName := (congrArg Prod.fst hnid).trans hname.symm
    have hpair : (o, n) ∈ (computeCliFlagDiff old new).stable :=
      mem_flags_stable.mpr ⟨hkey ▸ hname ▸ hn, (congrArg _ hkey).trans ho⟩
    exact congrArg Prod.snd (hoid.symm.trans ((h.same _ hpair).trans hnid))
  · intro f hf g hg hname hgone hcommand
    rcases (inOneOf_gone_iff hgone).mp (h.ofOld f.id (List.mem_map_of_mem hf)) with hr | ⟨hlast, hnone⟩
    · exact hr
    · exfalso
      have hgone' : g.flagName ∉ new.map (·.flagName) := hname ▸ hgone
      rcases (inOneOf_gone_iff hgone').mp (h.ofOld g.id (List.mem_map_of_mem hg)) with hr | hlast'
      · obtain ⟨g', hg', hid, hr'⟩ := hr
        exact hnone g' hg' ((congrArg Prod.fst hid).trans hname.symm) hr'
      · exact hcommand (hlast.command_eq hlast'.1 hname)
  · have honce := h.once
    rw [replaced_computeCliFlagDiff] at honce
    exact (nodup_replaced_iff old).mp honce

theorem FlagsApart.flagPartition (h : FlagsApart old new) :
    FlagPartition old new (computeCliFlagDiff old new) := by
  constructor
  · intro i hi
    obtain ⟨f, hf, rfl⟩ := List.mem_map.mp hi
    by_cases hgone : f.flagName ∉ new.map (·.flagName)
    · rw [inOneOf_gone_iff hgone]
      by_cases hr : ∃ f' ∈ old, f'.id = f.id ∧ FlagReplaced new f'
      · exact Or.inl hr
      · have hcommand : ∀ g ∈ old, g.flagName = f.flagName → g.commandName = f.commandName := by
          intro g hg hname
          by_contra hne
          exact hr (h.dropped f hf g hg hname.symm hgone fun heq => hne heq.symm)
        refine Or.inr ⟨isLast_of_command hf hcommand, fun g hg hname hgr => ?_⟩
        exact hr ⟨g, hg, Prod.ext hname (hcommand g hg hname), hgr⟩
    · rw [not_not] at hgone
      rw [inOneOf_kept_iff hgone]
      obtain ⟨n, hn, hname⟩ := List.mem_map.mp hgone
      refine isLast_of_command hf fun g hg hgname => ?_
      rw [h.kept g hg n hn (hgname.trans hname.symm), h.kept f hf n hn hname.symm]
  · intro i hi
    obtain ⟨f, hf, rfl⟩ := List.mem_map.mp hi
    exact inOneOf_new_flags_iff.mpr
      (isLast_of_command hf fun g hg hname => h.news g hg f hf hname)
  · intro p hp
    obtain ⟨hn, ho⟩ := mem_flags_stable.mp hp
    obtain ⟨hmem, hname⟩ := Dict.mem_of_get?_collect ho
    exact Prod.ext hname (h.kept p.1 hmem p.2 (Dict.mem_of_get?_collect hn).1 hname)
  · rw [replaced_computeCliFlagDiff]
    exact (nodup_replaced_iff old).mpr h.once
  · intro p hp
    obtain ⟨f, -, -, -, -, htarget⟩ := mem_flags_replaced.mp hp
    exact htarget

end Flags

/-- Symbols partition if none that was replaced is repeated with its hint, and flags if, moreover, the
flags of one name are the flags of one command, or are gone and replaced each. -/
theorem diff_partition_iff (old new : List CoreSymbolInfo) (oldFlags newFlags : List CLIFlagInfo) :
    (SymbolPartition old new (computeDiff old new) ↔ ReplacedOnce old new) ∧
      (FlagPartition oldFlags newFlags (computeCliFlagDiff oldFlags newFlags) ↔
        FlagsApart oldFlags newFlags) :=
  ⟨symbolPartition_iff, FlagPartition.flagsApart, FlagsApart.flagPartition⟩

namespace PortOfTwoCommands

def serverFlag : CLIFlagInfo where
  flagName := "--http-port"
  commandName := "server"
  odooVersion := "17.0"

def startFlag : CLIFlagInfo := { serverFlag with commandName := "start" }

def renamed : CoreSymbolInfo where
  qualifiedName := "odoo.osv.osv"
  kind := "class"
  odooVersion := "8.0"
  status := "deprecated"
  replacementQname := some "odoo.models.Model"

def replacing : CoreSymbolInfo where
  qualifiedName := "odoo.models.Model"
  kind := "class"
  odooVersion := "9.0"

/-- What one of the commands no longer has is in no class, and of a symbol that is listed twice its
replacement is noted twice. -/
theorem dropped_in_no_class :
    ¬ FlagPartition [serverFlag, startFlag] [serverFlag]
      (computeCliFlagDiff [serverFlag, startFlag] [serverFlag]) ∧
    (computeCliFlagDiff [serverFlag, startFlag] [serverFlag]).removed = [] ∧
    ¬ SymbolPartition [renamed, renamed] [replacing]
      (computeDiff [renamed, renamed] [replacing]) := by
  refine ⟨fun h => ?_, by decide, fun h => ?_⟩
  · exact absurd (h.ofOld ("--http-port", "server") (by decide)) (by decide)
  · exact absurd h.once (by decide)

end PortOfTwoCommands

end OdooSemantic
