import OdooSemantic.Lib.KeyedStore

/-!
# Edges that carry a placeholder flag

Between two nodes a merging writer may hold a plain edge and a flagged one, never two of a
kind: a pattern with the flag in it matches flagged edges only, a pattern without it matches
both. So a relation is a store keyed by source, target and flag, and the two ways of merging
into it differ in what they *touch*:

* `mergeStub` — the pattern names the flag: it touches the flagged edge and nothing else;
* `mergeAny` — the pattern leaves the flag open: it touches every edge there is between the
  pair, and creates the plain one when there is none.

`Touched` is that second set, and `lookup_mergeAll` is the reading of a whole `MATCH … MERGE`
over a list of targets.
-/

namespace OdooSemantic
namespace FlaggedEdges

open KeyedStore

variable {A B P : Type} [DecidableEq A] [DecidableEq B]

/-- Edges from `A` to `B` with a property `P`; the `Bool` is the placeholder flag. -/
abbrev Edges (A B P : Type) [DecidableEq A] [DecidableEq B] := Store (A × B × Bool) P

/-- `MERGE (a)-[r]->(b)`, flag left open. -/
def mergeAny (a : A) (b : B) (f : Option P → P) (es : Edges A B P) : Edges A B P :=
  if (a, b, true) ∈ es then
    if (a, b, false) ∈ es then upsert (a, b, false) f (upsert (a, b, true) f es)
    else upsert (a, b, true) f es
  else upsert (a, b, false) f es

/-- `MERGE (a)-[r {unresolved: true}]->(b)`. -/
def mergeStub (a : A) (b : B) (f : Option P → P) (es : Edges A B P) : Edges A B P :=
  upsert (a, b, true) f es

/-- `mergeAny` from one source to every target of a list. -/
def mergeAll (a : A) (bs : List B) (f : Option P → P) (es : Edges A B P) : Edges A B P :=
  bs.foldl (fun es b => mergeAny a b f es) es

/-- The edge `(a, b, flag)` is one that `mergeAny a b` matches or creates. -/
def Touched (es : Edges A B P) (a : A) (b : B) (flag : Bool) : Prop :=
  (a, b, flag) ∈ es ∨ (flag = false ∧ (a, b, true) ∉ es)

/-- There is an edge between the pair, flagged or not. -/
def Linked (es : Edges A B P) (a : A) (b : B) : Prop := (a, b, true) ∈ es ∨ (a, b, false) ∈ es

instance (es : Edges A B P) (a : A) (b : B) (flag : Bool) : Decidable (Touched es a b flag) :=
  inferInstanceAs (Decidable (_ ∨ _))

instance (es : Edges A B P) (a : A) (b : B) : Decidable (Linked es a b) :=
  inferInstanceAs (Decidable (_ ∨ _))

/-! ## One merge -/

theorem lookup_mergeAny (a : A) (b : B) (f : Option P → P) (es : Edges A B P)
    (a' : A) (b' : B) (flag : Bool) :
    (mergeAny a b f es).lookup (a', b', flag) =
      if a' = a ∧ b' = b ∧ Touched es a b flag then some (f (es.lookup (a', b', flag)))
      else es.lookup (a', b', flag) := by
  unfold mergeAny Touched
  by_cases hab : a' = a ∧ b' = b
  · obtain ⟨rfl, rfl⟩ := hab
    cases flag <;> by_cases ht : (a', b', true) ∈ es <;> by_cases hf : (a', b', false) ∈ es <;>
      simp [lookup_upsert, ht, hf]
  · have hne : ∀ fl : Bool, (a', b', flag) ≠ (a, b, fl) := by
      intro fl h
      simp only [Prod.mk.injEq] at h
      exact hab ⟨h.1, h.2.1⟩
    have hno : ¬ (a' = a ∧ b' = b ∧ ((a, b, flag) ∈ es ∨ flag = false ∧ (a, b, true) ∉ es)) :=
      fun h => hab ⟨h.1, h.2.1⟩
    rw [if_neg hno]
    split
    · split <;> simp [lookup_upsert_ne (hne _)]
    · rw [lookup_upsert_ne (hne _)]

theorem mem_iff_lookup {K V : Type} [DecidableEq K] {s s' : Store K V} {k : K}
    (h : s.lookup k = s'.lookup k) : k ∈ s ↔ k ∈ s' := by
  rw [← AList.lookup_isSome, ← AList.lookup_isSome, h]

theorem mem_mergeAny {a a' : A} {b b' : B} {f : Option P → P} {es : Edges A B P} {flag : Bool} :
    (a', b', flag) ∈ mergeAny a b f es ↔
      (a', b', flag) ∈ es ∨ (a' = a ∧ b' = b ∧ flag = false ∧ (a, b, true) ∉ es) := by
  rw [← AList.lookup_isSome, lookup_mergeAny]
  split
  · rename_i h
    obtain ⟨rfl, rfl, ht⟩ := h
    simpa [Touched] using ht
  · rename_i h
    rw [AList.lookup_isSome]
    constructor
    · exact Or.inl
    · rintro (h' | ⟨rfl, rfl, hfl, ht⟩)
      · exact h'
      · exact absurd ⟨rfl, rfl, Or.inr ⟨hfl, ht⟩⟩ h

/-- Merging one pair does not change what another merge of the same pair touches. -/
theorem touched_mergeAny {a a' : A} {b b' : B} {f : Option P → P} {es : Edges A B P}
    {flag : Bool} : Touched (mergeAny a' b' f es) a b flag ↔ Touched es a b flag := by
  unfold Touched
  rw [mem_mergeAny, mem_mergeAny]
  by_cases hab : a = a' ∧ b = b'
  · obtain ⟨rfl, rfl⟩ := hab
    simp only [true_and, Bool.true_eq_false, false_and, or_false]
    tauto
  · have h : ∀ p : Prop, ¬ (a = a' ∧ b = b' ∧ p) := fun p hp => hab ⟨hp.1, hp.2.1⟩
    simp [h]

/-! ## A merge over a list of targets -/

/-- **What a `MATCH … MERGE` over targets leaves under every key.** -/
theorem lookup_mergeAll {f : Option P → P} (hf : Settled f) (a : A) (bs : List B)
    (es : Edges A B P) (a' : A) (b' : B) (flag : Bool) :
    (mergeAll a bs f es).lookup (a', b', flag) =
      if a' = a ∧ b' ∈ bs ∧ Touched es a b' flag then some (f (es.lookup (a', b', flag)))
      else es.lookup (a', b', flag) := by
  induction bs generalizing es with
  | nil => simp [mergeAll]
  | cons b bs ih =>
    rw [mergeAll, List.foldl_cons, ← mergeAll, ih, lookup_mergeAny]
    simp only [touched_mergeAny, List.mem_cons]
    by_cases ha : a' = a
    · subst ha
      by_cases hb : b' = b
      · subst hb
        by_cases ht : Touched es a' b' flag
        · have hs : f (some (f (es.lookup (a', b', flag)))) = f (es.lookup (a', b', flag)) := hf _
          by_cases hm : b' ∈ bs <;> simp [ht, hm, hs]
        · simp [ht]
      · simp [hb]
    · simp [ha]

theorem mem_mergeAll {f : Option P → P} {a a' : A} {bs : List B} {b' : B} {es : Edges A B P}
    {flag : Bool} :
    (a', b', flag) ∈ mergeAll a bs f es ↔
      (a', b', flag) ∈ es ∨ (a' = a ∧ b' ∈ bs ∧ flag = false ∧ (a, b', true) ∉ es) := by
  induction bs generalizing es with
  | nil => simp [mergeAll]
  | cons b bs ih =>
    rw [mergeAll, List.foldl_cons, ← mergeAll, ih]
    simp only [mem_mergeAny, List.mem_cons, Bool.true_eq_false, false_and, and_false, or_false]
    grind

theorem lookup_mergeStub (a : A) (b : B) (f : Option P → P) (es : Edges A B P)
    (e : A × B × Bool) :
    (mergeStub a b f es).lookup e =
      if e = (a, b, true) then some (f (es.lookup (a, b, true))) else es.lookup e :=
  lookup_upsert _ _ _ _

theorem mem_mergeStub {a : A} {b : B} {f : Option P → P} {es : Edges A B P} {e : A × B × Bool} :
    e ∈ mergeStub a b f es ↔ e = (a, b, true) ∨ e ∈ es := mem_upsert

/-! ## Link to the real ones, else to a placeholder -/

/-- Where there are targets, merge an edge to each of them; where there is none, merge a flagged
    edge to the placeholder. -/
def linkOrStub (a : A) (targets : List B) (stub : B) (f : Option P → P) (es : Edges A B P) :
    Edges A B P :=
  if targets ≠ [] then mergeAll a targets f es else mergeStub a stub f es

/-- The edge `(b, flag)` out of the source is one `linkOrStub` merges, on a store where no
    target has a flagged edge. -/
def Merged (targets : List B) (stub b : B) (flag : Bool) : Prop :=
  (b ∈ targets ∧ flag = false) ∨ (targets = [] ∧ b = stub ∧ flag = true)

instance (targets : List B) (stub b : B) (flag : Bool) : Decidable (Merged targets stub b flag) :=
  inferInstanceAs (Decidable (_ ∨ _))

theorem touched_of_no_flag {a : A} {b : B} {es : Edges A B P} (h : (a, b, true) ∉ es)
    (flag : Bool) : Touched es a b flag ↔ flag = false := by
  unfold Touched
  cases flag <;> simp [h]

theorem lookup_mergeAll_of_no_flag {f : Option P → P} (hf : Settled f) {a : A} {bs : List B}
    {es : Edges A B P} (h : ∀ b ∈ bs, (a, b, true) ∉ es) (a' : A) (b' : B) (flag : Bool) :
    (mergeAll a bs f es).lookup (a', b', flag) =
      if a' = a ∧ b' ∈ bs ∧ flag = false then some (f (es.lookup (a', b', flag)))
      else es.lookup (a', b', flag) := by
  rw [lookup_mergeAll hf]
  by_cases hb : b' ∈ bs
  · simp only [touched_of_no_flag (h b' hb)]
  · simp [hb]

theorem lookup_linkOrStub {f : Option P → P} (hf : Settled f) {a : A} {targets : List B} {stub : B}
    {es : Edges A B P} (h : ∀ b ∈ targets, (a, b, true) ∉ es) (a' : A) (b' : B) (flag : Bool) :
    (linkOrStub a targets stub f es).lookup (a', b', flag) =
      if a' = a ∧ Merged targets stub b' flag then some (f (es.lookup (a', b', flag)))
      else es.lookup (a', b', flag) := by
  unfold linkOrStub Merged
  by_cases ht : targets = []
  · subst ht
    rw [if_neg (by simp), lookup_mergeStub]
    by_cases he : (a', b', flag) = (a, stub, true)
    · obtain ⟨rfl, rfl, rfl⟩ := by simpa using he
      simp
    · rw [if_neg he, if_neg]
      rintro ⟨rfl, h' | ⟨-, rfl, rfl⟩⟩
      · exact absurd h'.1 (by simp)
      · exact he rfl
  · rw [if_pos ht, lookup_mergeAll_of_no_flag hf h]
    simp [ht]

end FlaggedEdges
end OdooSemantic
