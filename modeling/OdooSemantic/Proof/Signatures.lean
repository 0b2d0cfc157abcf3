import OdooSemantic.Indexer.ParserOdooCore
import OdooSemantic.Mcp.ApiVersionDiff

/-!
# What a signature tells apart

A signature is the name and three of the five groups of parameters: the ordinary ones, `*args` and
`**kwargs`. These it tells apart, since a name has neither a comma nor a bracket nor a star
(`signature_eq_iff`). The positional-only and the keyword-only ones it leaves out, and so does the
comparison of two versions (`signatures_faithful_iff`).
-/

namespace OdooSemantic

section Join

variable {α : Type} {c : α} {sep : List α}

theorem append_cons_inj {xs ys xs' ys' : List α} (hx : c ∉ xs) (hy : c ∉ ys)
    (h : xs ++ c :: xs' = ys ++ c :: ys') : xs = ys ∧ xs' = ys' := by
  induction xs generalizing ys with
  | nil =>
    cases ys with
    | nil => exact ⟨rfl, (List.cons.inj h).2⟩
    | cons y ys =>
      obtain rfl := (List.cons.inj h).1
      exact absurd List.mem_cons_self hy
  | cons x xs ih =>
    cases ys with
    | nil =>
      obtain rfl := (List.cons.inj h).1
      exact absurd List.mem_cons_self hx
    | cons y ys =>
      obtain ⟨rfl, htail⟩ := List.cons.inj h
      obtain ⟨rfl, hrest⟩ := ih (fun hm => hx (List.mem_cons_of_mem _ hm))
        (fun hm => hy (List.mem_cons_of_mem _ hm)) htail
      exact ⟨rfl, hrest⟩

/-- What is joined can be taken apart, as long as no item is empty or has the separator in it. -/
theorem join_inj {xs ys : List (List α)} (hx : ∀ x ∈ xs, x ≠ [] ∧ c ∉ x)
    (hy : ∀ y ∈ ys, y ≠ [] ∧ c ∉ y)
    (h : List.intercalate (c :: sep) xs = List.intercalate (c :: sep) ys) : xs = ys := by
  induction xs generalizing ys with
  | nil =>
    cases ys with
    | nil => rfl
    | cons y ys =>
      have hne := (hy y List.mem_cons_self).1
      cases ys with
      | nil =>
        rw [List.intercalate_nil, List.intercalate_singleton] at h
        exact absurd h.symm hne
      | cons y' ys =>
        rw [List.intercalate_nil, List.intercalate_cons_cons] at h
        exact absurd h.symm (by simp)
  | cons x xs ih =>
    obtain ⟨hne, hnot⟩ := hx x List.mem_cons_self
    have hxs := fun x' hx' => hx x' (List.mem_cons_of_mem _ hx')
    cases ys with
    | nil =>
      cases xs with
      | nil =>
        rw [List.intercalate_nil, List.intercalate_singleton] at h
        exact absurd h hne
      | cons x' xs =>
        rw [List.intercalate_nil, List.intercalate_cons_cons] at h
        exact absurd h (by simp)
    | cons y ys =>
      have hnot' := (hy y List.mem_cons_self).2
      have hys := fun y' hy' => hy y' (List.mem_cons_of_mem _ hy')
      cases xs with
      | nil =>
        cases ys with
        | nil =>
          rw [List.intercalate_singleton, List.intercalate_singleton] at h
          rw [h]
        | cons y' ys =>
          rw [List.intercalate_singleton, List.intercalate_cons_cons] at h
          rw [h] at hnot
          exact absurd (by simp) hnot
      | cons x' xs =>
        cases ys with
        | nil =>
          rw [List.intercalate_singleton, List.intercalate_cons_cons] at h
          rw [← h] at hnot'
          exact absurd (by simp) hnot'
        | cons y' ys =>
          rw [List.intercalate_cons_cons, List.intercalate_cons_cons, List.append_assoc,
            List.append_assoc, List.cons_append, List.cons_append] at h
          obtain ⟨rfl, hrest⟩ := append_cons_inj hnot hnot' h
          rw [ih hxs hys (List.append_cancel_left hrest)]

end Join

/-! ## The parameters -/

/-- The name and the parameters of a function, group by group, without the defaults. -/
structure Parameters where
  name : Identifier
  posonlyargs : List Identifier
  args : List Identifier
  vararg : Option Identifier
  kwonlyargs : List Identifier
  kwarg : Option Identifier

namespace FunctionDef

def parameters (f : FunctionDef) : Parameters where
  name := f.name
  posonlyargs := f.args.posonlyargs.map PyArg.arg
  args := f.args.args.map PyArg.arg
  vararg := f.args.vararg.map PyArg.arg
  kwonlyargs := f.args.kwonlyargs.map PyArg.arg
  kwarg := f.args.kwarg.map PyArg.arg

/-- The two agree in what a signature has. -/
def SameShown (f g : FunctionDef) : Prop :=
  f.parameters.name = g.parameters.name ∧ f.parameters.args = g.parameters.args ∧
    f.parameters.vararg = g.parameters.vararg ∧ f.parameters.kwarg = g.parameters.kwarg

/-- They agree in what it leaves out. -/
def SameHidden (f g : FunctionDef) : Prop :=
  f.parameters.posonlyargs = g.parameters.posonlyargs ∧
    f.parameters.kwonlyargs = g.parameters.kwonlyargs

theorem parameters_eq_iff {f g : FunctionDef} :
    f.parameters = g.parameters ↔ SameShown f g ∧ SameHidden f g := by
  rw [Parameters.mk.injEq]
  constructor
  · rintro ⟨hname, hpos, hargs, hvar, hkwonly, hkw⟩
    exact ⟨⟨hname, hargs, hvar, hkw⟩, hpos, hkwonly⟩
  · rintro ⟨⟨hname, hargs, hvar, hkw⟩, hpos, hkwonly⟩
    exact ⟨hname, hpos, hargs, hvar, hkwonly, hkw⟩

end FunctionDef

section Shown

/-- A parameter with the stars of its group. -/
def starred (stars : Nat) (name : Identifier) : List Char :=
  List.replicate stars '*' ++ name.text.toList

def leadingStars (cs : List Char) : Nat := (cs.takeWhile (· = '*')).length

theorem Identifier.not_mem {name : Identifier} {c : Char} (hc : isNameChar c = false) :
    c ∉ name.text.toList := by
  intro hmem
  rw [name.chars c hmem] at hc
  exact absurd hc (by simp)

theorem leadingStars_starred (stars : Nat) (name : Identifier) :
    leadingStars (starred stars name) = stars := by
  have hname : name.text.toList.takeWhile (· = '*') = [] := by
    cases h : name.text.toList with
    | nil => rfl
    | cons c cs =>
      have hne : c ≠ '*' := by
        intro hc
        have hmem : '*' ∈ name.text.toList := by rw [h, hc]; exact List.mem_cons_self
        exact name.not_mem (by decide) hmem
      rw [List.takeWhile_cons_of_neg (by simpa using hne)]
  unfold leadingStars starred
  rw [List.takeWhile_append_of_pos (by simp), hname]
  simp

theorem starred_injective {stars : Nat} {a b : Identifier} (h : starred stars a = starred stars b) :
    a = b := Identifier.text_injective (String.toList_injective (List.append_cancel_left h))

theorem starred_ne_nil (stars : Nat) (name : Identifier) : starred stars name ≠ [] := by
  intro h
  have hnil := (List.append_eq_nil_iff.mp h).2
  exact name.nonempty (String.toList_injective hnil)

theorem comma_not_mem_starred (stars : Nat) (name : Identifier) : ',' ∉ starred stars name := by
  intro h
  rcases List.mem_append.mp h with hstar | hname
  · exact absurd (List.eq_of_mem_replicate hstar) (by decide)
  · exact name.not_mem (by decide) hname

/-- The parameters with these stars. -/
def group (stars : Nat) (shown : List (List Char)) : List (List Char) :=
  shown.filter fun cs => leadingStars cs = stars

theorem group_starred_self (stars : Nat) (names : List Identifier) :
    group stars (names.map (starred stars)) = names.map (starred stars) := by
  rw [group, List.filter_eq_self]
  intro cs hcs
  obtain ⟨name, -, rfl⟩ := List.mem_map.mp hcs
  exact decide_eq_true (leadingStars_starred stars name)

theorem group_starred_other {stars other : Nat} (hne : other ≠ stars) (names : List Identifier) :
    group stars (names.map (starred other)) = [] := by
  rw [group, List.filter_eq_nil_iff]
  intro cs hcs
  obtain ⟨name, -, rfl⟩ := List.mem_map.mp hcs
  rw [leadingStars_starred]
  simpa using hne

theorem toList_option_inj {α : Type} {a b : Option α} (h : a.toList = b.toList) : a = b := by
  cases a with
  | none =>
    cases b with
    | none => rfl
    | some b => exact absurd h (by simp)
  | some a =>
    cases b with
    | none => exact absurd h (by simp)
    | some b => rw [(List.cons.inj h).1]

theorem starred_map_inj {stars : Nat} {as bs : List Identifier}
    (h : as.map (starred stars) = bs.map (starred stars)) : as = bs :=
  (List.map_injective_iff.mpr fun _ _ => starred_injective) h

end Shown

namespace FunctionDef

variable {f g : FunctionDef}

theorem shownArgs_toList (f : FunctionDef) : f.shownArgs.map String.toList =
    f.parameters.args.map (starred 0) ++ f.parameters.vararg.toList.map (starred 1) ++
      f.parameters.kwarg.toList.map (starred 2) := by
  have hopt : ∀ (stars : Nat) (mark : String) (o : Option PyArg),
      mark.toList = List.replicate stars '*' →
      (o.map fun a => mark ++ a.arg.text).toList.map String.toList =
        (o.map PyArg.arg).toList.map (starred stars) := by
    intro stars mark o hmark
    cases o with
    | none => rfl
    | some a =>
      show [(mark ++ a.arg.text).toList] = [starred stars a.arg]
      rw [String.toList_append, hmark, starred]
  rw [shownArgs, List.map_append, List.map_append, hopt 1 "*" _ rfl, hopt 2 "**" _ rfl, List.map_map]
  simp only [parameters, List.map_map]
  rfl

/-- What stands in a group of the signature. -/
theorem group_shownArgs (f : FunctionDef) :
    group 0 (f.shownArgs.map String.toList) = f.parameters.args.map (starred 0) ∧
      group 1 (f.shownArgs.map String.toList) = f.parameters.vararg.toList.map (starred 1) ∧
      group 2 (f.shownArgs.map String.toList) = f.parameters.kwarg.toList.map (starred 2) := by
  have happend : ∀ stars as bs cs, group stars (as ++ bs ++ cs) =
      group stars as ++ group stars bs ++ group stars cs := by
    intro stars as bs cs
    rw [group, List.filter_append, List.filter_append]
    rfl
  rw [shownArgs_toList]
  refine ⟨?_, ?_, ?_⟩
  · rw [happend, group_starred_self, group_starred_other (by decide),
      group_starred_other (by decide), List.append_nil, List.append_nil]
  · rw [happend, group_starred_self, group_starred_other (by decide),
      group_starred_other (by decide), List.append_nil, List.nil_append]
  · rw [happend, group_starred_self, group_starred_other (by decide),
      group_starred_other (by decide), List.nil_append, List.nil_append]

theorem shownArgs_eq_iff : f.shownArgs = g.shownArgs ↔ f.parameters.args = g.parameters.args ∧
    f.parameters.vararg = g.parameters.vararg ∧ f.parameters.kwarg = g.parameters.kwarg := by
  constructor
  · intro h
    obtain ⟨hargs, hvar, hkw⟩ := group_shownArgs f
    obtain ⟨hargs', hvar', hkw'⟩ := group_shownArgs g
    rw [h, hargs'] at hargs
    rw [h, hvar'] at hvar
    rw [h, hkw'] at hkw
    exact ⟨(starred_map_inj hargs).symm, (toList_option_inj (starred_map_inj hvar)).symm,
      (toList_option_inj (starred_map_inj hkw)).symm⟩
  · rintro ⟨hargs, hvar, hkw⟩
    refine List.map_injective_iff.mpr (fun _ _ => String.toList_injective) ?_
    rw [shownArgs_toList, shownArgs_toList, hargs, hvar, hkw]

theorem mem_shownArgs {f : FunctionDef} {cs : List Char} (h : cs ∈ f.shownArgs.map String.toList) :
    cs ≠ [] ∧ ',' ∉ cs := by
  rw [shownArgs_toList] at h
  obtain ⟨stars, name, rfl⟩ : ∃ stars name, starred stars name = cs := by
    rcases List.mem_append.mp h with h | h
    · rcases List.mem_append.mp h with h | h
      · obtain ⟨name, -, rfl⟩ := List.mem_map.mp h
        exact ⟨0, name, rfl⟩
      · obtain ⟨name, -, rfl⟩ := List.mem_map.mp h
        exact ⟨1, name, rfl⟩
    · obtain ⟨name, -, rfl⟩ := List.mem_map.mp h
      exact ⟨2, name, rfl⟩
  exact ⟨starred_ne_nil stars name, comma_not_mem_starred stars name⟩

/-- **A signature tells the shown parameters apart**, and nothing else. -/
theorem signature_eq_iff : f.signature = g.signature ↔ SameShown f g := by
  have htext : ∀ f : FunctionDef, f.signature.toList = f.name.text.toList ++
      '(' :: ([',', ' '].intercalate (f.shownArgs.map String.toList) ++ [')']) := by
    intro f
    rw [signature, String.toList_append, String.toList_append, String.toList_append,
      String.toList_intercalate]
    simp
  constructor
  · intro h
    have hchars := congrArg String.toList h
    rw [htext, htext] at hchars
    obtain ⟨hname, hargs⟩ := append_cons_inj (f.name.not_mem (by decide))
      (g.name.not_mem (by decide)) hchars
    have hshown := join_inj (fun _ => mem_shownArgs) (fun _ => mem_shownArgs)
      (List.append_cancel_right hargs)
    refine ⟨Identifier.text_injective (String.toList_injective hname), ?_⟩
    exact shownArgs_eq_iff.mp (List.map_injective_iff.mpr (fun _ _ => String.toList_injective) hshown)
  · rintro ⟨hname, hargs⟩
    rw [signature, signature, shownArgs_eq_iff.mpr hargs, show f.name = g.name from hname]

theorem signature_ne_empty (f : FunctionDef) : f.signature ≠ "" := by
  intro h
  have hmem : '(' ∈ f.signature.toList := by simp [signature]
  rw [h] at hmem
  exact absurd hmem (by simp)

end FunctionDef

/-! ## The comparison -/

/-- The node that there is of a symbol after it is written. -/
def CoreSymbolInfo.record (s : CoreSymbolInfo) : CoreSymbolRecord :=
  (s.key, { props := CoreSymbolProps.write s none })

/-- **The signatures of two functions are faithful**, and so is what is reported of the two as one
symbol in two versions. -/
structure SignaturesFaithful (f g : FunctionDef) : Prop where
  equal : f.signature = g.signature ↔ f.parameters = g.parameters
  reported : ∀ (qname fromVersion toVersion kind kind' : String) (file file' : Option String),
    (formatApiDiff (some (buildFunctionSymbol f qname fromVersion kind file).record)
      (some (buildFunctionSymbol g qname toVersion kind' file').record) fromVersion
      toVersion).verdict = .changed ↔ f.parameters ≠ g.parameters

theorem formatApiDiff_changed {old new : CoreSymbolRecord} {fromVersion toVersion : String} :
    (formatApiDiff (some old) (some new) fromVersion toVersion).verdict = .changed ↔
      signatureChanged old.signature new.signature = true := by
  rw [formatApiDiff]
  cases signatureChanged old.signature new.signature with
  | true => simp
  | false => simp

theorem signatureChanged_iff (f g : FunctionDef) :
    signatureChanged (some f.signature) (some g.signature) = true ↔ f.signature ≠ g.signature := by
  have htruthy : ∀ f : FunctionDef, truthy (some f.signature) = some f.signature := by
    intro f
    rw [truthy, Option.filter_some, if_pos (decide_eq_true f.signature_ne_empty)]
  rw [signatureChanged, htruthy, htruthy]
  exact decide_eq_true_iff

/-- **The signatures are faithful as long as the hidden groups do not differ alone.** -/
theorem signatures_faithful_iff (f g : FunctionDef) :
    SignaturesFaithful f g ↔ FunctionDef.SameHidden f g ∨ ¬FunctionDef.SameShown f g := by
  constructor
  · intro h
    by_cases hshown : FunctionDef.SameShown f g
    · exact Or.inl (FunctionDef.parameters_eq_iff.mp
        (h.equal.mp (FunctionDef.signature_eq_iff.mpr hshown))).2
    · exact Or.inr hshown
  · intro h
    have hequal : f.signature = g.signature ↔ f.parameters = g.parameters := by
      rw [FunctionDef.signature_eq_iff, FunctionDef.parameters_eq_iff]
      constructor
      · intro hshown
        exact ⟨hshown, h.resolve_right fun hdiffer => hdiffer hshown⟩
      · exact fun hsame => hsame.1
    refine ⟨hequal, fun qname fromVersion toVersion kind kind' file file' => ?_⟩
    rw [formatApiDiff_changed]
    exact (signatureChanged_iff f g).trans (not_congr hequal)

namespace SearchOverride

def param (text : String) (nonempty : text ≠ "" := by decide)
    (chars : ∀ c ∈ text.toList, isNameChar c = true := by exact List.all_eq_true.mp (by decide)) :
    PyArg where
  arg := ⟨text, nonempty, chars⟩

/-- `def _search(self, *, access_rights_uid=None)` -/
def old : FunctionDef where
  name := (param "_search").arg
  args := { args := [param "self"], kwonlyargs := [param "access_rights_uid"]
            kwDefaults := [some (.other [])] }

/-- `def _search(self)` -/
def new : FunctionDef where
  name := (param "_search").arg
  args := { args := [param "self"] }

/-- **The parameter is gone, and the report does not say so.** -/
theorem removal_not_reported : ¬∀ f g : FunctionDef, SignaturesFaithful f g := by
  intro h
  have hsame : old.signature = new.signature := rfl
  have hparams := (h old new).equal.mp hsame
  have hkwonly := congrArg (fun p : Parameters => p.kwonlyargs.length) hparams
  exact absurd hkwonly (by decide)

end SearchOverride
end OdooSemantic
