import Mathlib.Data.List.Induction
import OdooSemantic.Lib.Machine
import OdooSemantic.Lib.PyText
import OdooSemantic.Mcp.Refs

/-!
# What a ref stands for

A ref is never given away twice: the counters only go up, so a name that is new was nobody's. Which
of the names an item gets is up to the hash of its dict, and the hash does not see the values but
what `str` makes of them, nor the kind that was asked for.

So as long as the hash tells the dicts apart that a tenant has named, and a dict is not asked for
under two kinds, a ref stands for one dict, which comes back until the ref has expired, and a dict
that is listed again has the ref it had (`refs_law_run`). Tenants never meet (`refs_own`).
-/

namespace OdooSemantic

open KeyedStore

namespace RefItem

variable {V : Type} {a b c : RefItem V}

theorem same_refl (a : RefItem V) : a.Same a := fun _ => rfl

theorem Same.symm (h : a.Same b) : b.Same a := fun k => (h k).symm

theorem Same.trans (h : a.Same b) (h' : b.Same c) : a.Same c := fun k => (h k).trans (h' k)

end RefItem

/-! ## Names -/

/-- The letters of `PREFIX_BY_KIND`. -/
def refPrefixes : List String := prefixByKind.map Prod.snd

theorem mem_refPrefixes {V : Type} {kind pre : String} {item : RefItem V}
    (h : prefixFor kind item = .ok pre) : pre ∈ refPrefixes := by
  unfold prefixFor at h
  split at h
  · exact absurd h (by simp)
  · split at h
    · rename_i effectiveKind _ _ pre' hlookup
      obtain rfl := Except.ok.inj h
      obtain ⟨before, after, heq, -⟩ := List.lookup_eq_some_iff.mp hlookup
      have hmem : (effectiveKind, pre') ∈ prefixByKind := by
        rw [heq]
        simp
      exact List.mem_map_of_mem hmem
    · exact absurd h (by simp)

/-- **No two counters make the same name.** -/
theorem ref_injective {pre pre' : String} (hpre : pre ∈ refPrefixes) (hpre' : pre' ∈ refPrefixes)
    {n n' : Nat} (h : pre ++ toString n = pre' ++ toString n') : pre = pre' ∧ n = n' := by
  have hletter : ∀ pre ∈ refPrefixes, pre.toList.length = 1 := by decide
  have hlist := congrArg String.toList h
  rw [String.toList_append, String.toList_append] at hlist
  obtain ⟨hfirst, hrest⟩ := List.append_inj hlist ((hletter pre hpre).trans (hletter pre' hpre').symm)
  refine ⟨String.toList_inj.mp hfirst, ?_⟩
  have hint := PyText.int_str n
  rw [PyText.str, String.toList_inj.mp hrest, ← PyText.str, PyText.int_str] at hint
  exact (Int.ofNat.inj (Option.some.inj hint)).symm

namespace TenantStore

variable {V : Type} {py : PyRuntime V} {ttl now clock : ℚ} {s : TenantStore V} {pre ref : String}
  {item : RefItem V} {entry : RefEntry V} {ch : Int}

/-! ## The sweep -/

theorem lookup_evictExpired : (s.evictExpired now).refs.lookup ref = some entry ↔
    s.refs.lookup ref = some entry ∧ now < entry.expiresAt := by
  rw [evictExpired, lookup_eraseWhere]
  cases hentry : s.refs.lookup ref with
  | none => simp
  | some e =>
    simp only [Option.any_some, decide_eq_true_eq]
    split
    · rename_i hold
      refine iff_of_false (by simp) fun h => ?_
      rw [← Option.some.inj h.1] at h
      exact absurd h.2 (not_lt.mpr hold)
    · rename_i hlive
      refine ⟨fun h => ⟨h, ?_⟩, fun h => h.1⟩
      rw [← Option.some.inj h]
      exact not_le.mp hlive

theorem hashToRef_evictExpired : (s.evictExpired now).hashToRef.lookup ch = some ref ↔
    s.hashToRef.lookup ch = some ref ∧ ref ∈ (s.evictExpired now).refs := by
  have hrefs : (s.evictExpired now).refs =
      eraseWhere (fun ref => (s.refs.lookup ref).any fun e => e.expiresAt ≤ now) s.refs := rfl
  rw [hrefs, evictExpired, lookup_eraseWhere]
  cases hch : s.hashToRef.lookup ch with
  | none => simp
  | some r =>
    simp only [Option.any_some, decide_eq_true_eq]
    split
    · rename_i hdead
      refine iff_of_false (by simp) fun h => ?_
      rw [← Option.some.inj h.1] at h
      exact hdead h.2
    · rename_i hlive
      refine ⟨fun h => ⟨h, ?_⟩, fun h => h.1⟩
      rw [← Option.some.inj h]
      exact not_not.mp hlive

/-! ## What a store keeps -/

/-- That `mint` gave this ref to this item, at this time and under this prefix. -/
structure Grant (V : Type) where
  time : ℚ
  item : RefItem V
  pre : String
  ref : String

/-- What a store knows. `Denotes ref item` says that the ref has ever stood for the item, and
    `Granted` are the answers of `mint`. -/
structure Knows (py : PyRuntime V) (ttl clock : ℚ) (s : TenantStore V)
    (Denotes : String → RefItem V → Prop) (Granted : Grant V → Prop) : Prop where
  entry : ∀ ref e, s.refs.lookup ref = some e → Denotes ref e.canonical
  mapped : ∀ ch ref, s.hashToRef.lookup ch = some ref → ∃ item, Denotes ref item
  named : ∀ ref item, Denotes ref item →
    ∃ pre ∈ refPrefixes, ∃ n, ref = pre ++ toString n ∧ n < s.counter pre
  one : ∀ ref item item', Denotes ref item → Denotes ref item' → item.Same item'
  hashed : ∀ ref e, s.refs.lookup ref = some e → clock < e.expiresAt →
    s.hashToRef.lookup (e.canonical.canonicalHash py) = some ref
  hashes : ∀ ch ref e, s.hashToRef.lookup ch = some ref → s.refs.lookup ref = some e →
    e.canonical.canonicalHash py = ch
  granted : ∀ g, Granted g → Denotes g.ref g.item ∧ g.pre.toList <+: g.ref.toList ∧ g.time ≤ clock
  alive : ∀ g, Granted g → clock < g.time + ttl →
    ∃ e, s.refs.lookup g.ref = some e ∧ g.time + ttl ≤ e.expiresAt
  stable : ∀ g g', Granted g → Granted g' → g.item.Same g'.item → g.time ≤ g'.time →
    g'.time < g.time + ttl → g.ref = g'.ref

variable {Denotes : String → RefItem V → Prop} {Granted Granted' : Grant V → Prop}

theorem knows_empty : Knows py ttl clock ({} : TenantStore V) (fun _ _ => False) fun _ => False where
  entry ref e h := absurd h (by simp)
  mapped ch ref h := absurd h (by simp)
  named ref item h := h.elim
  one ref item item' h := h.elim
  hashed ref e h := absurd h (by simp)
  hashes ch ref e h := absurd h (by simp)
  granted g h := h.elim
  alive g h := h.elim
  stable g g' h := h.elim

theorem Knows.later (h : Knows py ttl clock s Denotes Granted) (hnow : clock ≤ now) :
    Knows py ttl now s Denotes Granted :=
  { h with
    hashed := fun ref e he hlive => h.hashed ref e he (lt_of_le_of_lt hnow hlive)
    granted := fun g hg => ⟨(h.granted g hg).1, (h.granted g hg).2.1, (h.granted g hg).2.2.trans hnow⟩
    alive := fun g hg hlive => h.alive g hg (lt_of_le_of_lt hnow hlive) }

/-- What is not told is not known. -/
theorem Knows.fewer (h : Knows py ttl clock s Denotes Granted) (hsub : ∀ g, Granted' g → Granted g) :
    Knows py ttl clock s Denotes Granted' :=
  { h with
    granted := fun g hg => h.granted g (hsub g hg)
    alive := fun g hg => h.alive g (hsub g hg)
    stable := fun g g' hg hg' => h.stable g g' (hsub g hg) (hsub g' hg') }

/-- **The sweep** takes out nothing that is still good. -/
theorem Knows.evictExpired (h : Knows py ttl now s Denotes Granted) :
    Knows py ttl now (s.evictExpired now) Denotes Granted where
  entry ref e he := h.entry ref e (lookup_evictExpired.mp he).1
  mapped ch ref hch := h.mapped ch ref (hashToRef_evictExpired.mp hch).1
  named := h.named
  one := h.one
  hashed ref e he hlive := hashToRef_evictExpired.mpr
    ⟨h.hashed ref e (lookup_evictExpired.mp he).1 hlive, AList.lookup_isSome.mp (by rw [he]; rfl)⟩
  hashes ch ref e hch he :=
    h.hashes ch ref e (hashToRef_evictExpired.mp hch).1 (lookup_evictExpired.mp he).1
  granted := h.granted
  alive g hg hlive := by
    obtain ⟨e, he, hexpires⟩ := h.alive g hg hlive
    exact ⟨e, lookup_evictExpired.mpr ⟨he, lt_of_lt_of_le hlive hexpires⟩, hexpires⟩
  stable := h.stable

/-! ## One item -/

/-- **The hash tells the item apart**: among the dicts of the refs that are good, those with its hash
    are those that equal it, and they were named under its prefix. -/
def TellsApart (py : PyRuntime V) (now : ℚ) (s : TenantStore V) (pre : String) (item : RefItem V) :
    Prop :=
  ∀ ref e, s.refs.lookup ref = some e → now < e.expiresAt →
    (e.canonical.canonicalHash py = item.canonicalHash py ↔ e.canonical.Same item) ∧
    (e.canonical.Same item → pre.toList <+: ref.toList)

instance [DecidableEq V] (s : TenantStore V) : Decidable (TellsApart py now s pre item) :=
  decidable_of_iff (∀ i ∈ s.refs.entries, now < i.2.expiresAt →
      (i.2.canonical.canonicalHash py = item.canonicalHash py ↔ i.2.canonical.Same item) ∧
      (i.2.canonical.Same item → pre.toList <+: i.1.toList)) <| by
    refine ⟨fun h ref e he => h ⟨ref, e⟩ (AList.mem_lookup_iff.mp he), fun h i hi => ?_⟩
    exact h i.1 i.2 (AList.mem_lookup_iff.mpr hi)

/-- Where an equal dict has a good ref, the index leads to it. -/
theorem Knows.finds (h : Knows py ttl now s Denotes Granted) (hapart : TellsApart py now s pre item)
    {g : Grant V} (hg : Granted g) (hgood : now < g.time + ttl) (hsame : g.item.Same item) :
    s.hashToRef.lookup (item.canonicalHash py) = some g.ref ∧
      ∃ e, s.refs.lookup g.ref = some e ∧ now < e.expiresAt := by
  obtain ⟨e, he, hexpires⟩ := h.alive g hg hgood
  have hlive : now < e.expiresAt := lt_of_lt_of_le hgood hexpires
  have hitem : e.canonical.Same item :=
    (h.one g.ref _ _ (h.entry g.ref e he) (h.granted g hg).1).trans hsame
  rw [← (hapart g.ref e he hlive).1.mpr hitem]
  exact ⟨h.hashed g.ref e he hlive, e, he, hlive⟩

/-- One more grant, of the ref that the index had for equal dicts, if it had one. -/
theorem Knows.stable_cons (h : Knows py ttl now s Denotes Granted) {ref : String}
    (hfinds : ∀ g, Granted g → now < g.time + ttl → g.item.Same item → g.ref = ref)
    {g g' : Grant V} (hg : Granted g ∨ g = ⟨now, item, pre, ref⟩)
    (hg' : Granted g' ∨ g' = ⟨now, item, pre, ref⟩) (hsame : g.item.Same g'.item)
    (hle : g.time ≤ g'.time) (hlt : g'.time < g.time + ttl) : g.ref = g'.ref := by
  rcases hg with hg | rfl <;> rcases hg' with hg' | rfl
  · exact h.stable g g' hg hg' hsame hle hlt
  · exact hfinds g hg hlt hsame
  · have htime : g'.time = now := le_antisymm (h.granted g' hg').2.2 hle
    rw [← htime] at hlt
    exact (hfinds g' hg' (htime ▸ hlt) hsame.symm).symm
  · rfl

/-- A ref that was there stands for the item once more. -/
theorem Knows.renew (h : Knows py ttl now s Denotes Granted) {ref : String} {e : RefEntry V}
    (hapart : TellsApart py now s pre item)
    (hch : s.hashToRef.lookup (item.canonicalHash py) = some ref) (he : s.refs.lookup ref = some e)
    (hlive : now < e.expiresAt) :
    Knows py ttl now { s with refs := s.refs.insert ref { e with expiresAt := now + ttl } }
      (fun r x => Denotes r x ∨ r = ref ∧ x = item)
      (fun g => Granted g ∨ g = ⟨now, item, pre, ref⟩) := by
  have hhash := h.hashes _ ref e hch he
  have hsame := (hapart ref e he hlive).1.mp hhash
  have hpre := (hapart ref e he hlive).2 hsame
  have hdenotes := h.entry ref e he
  have hlookup : ∀ r f, (s.refs.insert ref { e with expiresAt := now + ttl }).lookup r = some f →
      r = ref ∧ f = { e with expiresAt := now + ttl } ∨ r ≠ ref ∧ s.refs.lookup r = some f := by
    intro r f hf
    by_cases hr : r = ref
    · subst hr
      rw [AList.lookup_insert] at hf
      exact Or.inl ⟨rfl, (Option.some.inj hf).symm⟩
    · rw [AList.lookup_insert_ne hr] at hf
      exact Or.inr ⟨hr, hf⟩
  refine ⟨fun r f hf => ?_, fun ch r hr => ?_, fun r x hx => ?_, fun r x x' hx hx' => ?_,
    fun r f hf hgood => ?_, fun ch r f hr hf => ?_, fun g hg => ?_, fun g hg hgood => ?_,
    fun g g' hg hg' hitems hle hlt => ?_⟩
  · rcases hlookup r f hf with ⟨rfl, rfl⟩ | ⟨-, hold⟩
    · exact Or.inl hdenotes
    · exact Or.inl (h.entry r f hold)
  · obtain ⟨x, hx⟩ := h.mapped ch r hr
    exact ⟨x, Or.inl hx⟩
  · rcases hx with hx | ⟨rfl, -⟩
    · exact h.named r x hx
    · exact h.named r _ hdenotes
  · rcases hx with hx | ⟨rfl, rfl⟩ <;> rcases hx' with hx' | ⟨hr, rfl⟩
    · exact h.one r x x' hx hx'
    · subst hr
      exact (h.one r x _ hx hdenotes).trans hsame
    · exact hsame.symm.trans (h.one r _ x' hdenotes hx')
    · exact RefItem.same_refl _
  · rcases hlookup r f hf with ⟨rfl, rfl⟩ | ⟨-, hold⟩
    · exact h.hashed r e he hlive
    · exact h.hashed r f hold hgood
  · rcases hlookup r f hf with ⟨rfl, rfl⟩ | ⟨-, hold⟩
    · exact h.hashes ch r e hr he
    · exact h.hashes ch r f hr hold
  · rcases hg with hg | rfl
    · exact ⟨Or.inl (h.granted g hg).1, (h.granted g hg).2⟩
    · exact ⟨Or.inr ⟨rfl, rfl⟩, hpre, le_rfl⟩
  · rcases hg with hg | rfl
    · obtain ⟨f, hf, hexpires⟩ := h.alive g hg hgood
      by_cases hr : g.ref = ref
      · exact ⟨_, by rw [hr, AList.lookup_insert], add_le_add_left (h.granted g hg).2.2 ttl⟩
      · exact ⟨f, by rw [AList.lookup_insert_ne hr, hf], hexpires⟩
    · exact ⟨_, AList.lookup_insert _, le_rfl⟩
  · refine h.stable_cons (fun g hg hgood hsame => ?_) hg hg' hitems hle hlt
    exact Option.some.inj ((h.finds hapart hg hgood hsame).1.symm.trans hch)

/-- **A new ref**, where the index has none that is good. -/
theorem Knows.mintNew (h : Knows py ttl now s Denotes Granted) (hpre : pre ∈ refPrefixes)
    (hapart : TellsApart py now s pre item)
    (hnone : ∀ ref e, s.hashToRef.lookup (item.canonicalHash py) = some ref →
      s.refs.lookup ref = some e → ¬now < e.expiresAt) :
    Knows py ttl now (s.mintNew py ttl now pre item).2
      (fun r x => Denotes r x ∨ r = (s.mintNew py ttl now pre item).1 ∧ x = item)
      (fun g => Granted g ∨ g = ⟨now, item, pre, (s.mintNew py ttl now pre item).1⟩) := by
  have hfresh : ∀ x, ¬Denotes (pre ++ toString (s.counter pre)) x := by
    intro x hx
    obtain ⟨pre', hpre', n, heq, hlt⟩ := h.named _ x hx
    obtain ⟨rfl, rfl⟩ := ref_injective hpre hpre' heq
    exact Nat.lt_irrefl _ hlt
  have hcounter : ∀ pre', s.counter pre' ≤ (s.mintNew py ttl now pre item).2.counter pre' := by
    intro pre'
    by_cases heq : pre' = pre
    · subst heq
      simp [TenantStore.mintNew, counter]
    · simp [TenantStore.mintNew, counter, AList.lookup_insert_ne heq]
  have hnext : s.counter pre < (s.mintNew py ttl now pre item).2.counter pre := by
    simp [TenantStore.mintNew, counter]
  simp only [TenantStore.mintNew] at hcounter hnext ⊢
  generalize hr : pre ++ toString (s.counter pre) = ref at hfresh hcounter hnext ⊢
  have hlookup : ∀ r f, (s.refs.insert ref ⟨item, now + ttl⟩).lookup r = some f →
      r = ref ∧ f = ⟨item, now + ttl⟩ ∨ r ≠ ref ∧ s.refs.lookup r = some f := by
    intro r f hf
    by_cases hr : r = ref
    · subst hr
      rw [AList.lookup_insert] at hf
      exact Or.inl ⟨rfl, (Option.some.inj hf).symm⟩
    · rw [AList.lookup_insert_ne hr] at hf
      exact Or.inr ⟨hr, hf⟩
  have hindex : ∀ ch r, (s.hashToRef.insert (item.canonicalHash py) ref).lookup ch = some r →
      ch = item.canonicalHash py ∧ r = ref ∨ s.hashToRef.lookup ch = some r := by
    intro ch r hch
    by_cases heq : ch = item.canonicalHash py
    · subst heq
      rw [AList.lookup_insert] at hch
      exact Or.inl ⟨rfl, (Option.some.inj hch).symm⟩
    · rw [AList.lookup_insert_ne heq] at hch
      exact Or.inr hch
  refine ⟨fun r f hf => ?_, fun ch r hch => ?_, fun r x hx => ?_, fun r x x' hx hx' => ?_,
    fun r f hf hgood => ?_, fun ch r f hch hf => ?_, fun g hg => ?_, fun g hg hgood => ?_,
    fun g g' hg hg' hitems hle hlt => ?_⟩
  · rcases hlookup r f hf with ⟨rfl, rfl⟩ | ⟨-, hold⟩
    · exact Or.inr ⟨rfl, rfl⟩
    · exact Or.inl (h.entry r f hold)
  · rcases hindex ch r hch with ⟨-, rfl⟩ | hold
    · exact ⟨item, Or.inr ⟨rfl, rfl⟩⟩
    · obtain ⟨x, hx⟩ := h.mapped ch r hold
      exact ⟨x, Or.inl hx⟩
  · rcases hx with hx | ⟨rfl, -⟩
    · obtain ⟨pre', hpre', n, heq, hlt⟩ := h.named r x hx
      exact ⟨pre', hpre', n, heq, lt_of_lt_of_le hlt (hcounter pre')⟩
    · exact ⟨pre, hpre, _, hr.symm, hnext⟩
  · rcases hx with hx | ⟨hx, rfl⟩ <;> rcases hx' with hx' | ⟨hx', rfl⟩
    · exact h.one r x x' hx hx'
    · exact absurd (hx' ▸ hx) (hfresh x)
    · exact absurd (hx ▸ hx') (hfresh x')
    · exact RefItem.same_refl _
  · rcases hlookup r f hf with ⟨rfl, rfl⟩ | ⟨-, hold⟩
    · exact AList.lookup_insert _
    · have hhashed := h.hashed r f hold hgood
      by_cases heq : f.canonical.canonicalHash py = item.canonicalHash py
      · rw [heq] at hhashed
        exact absurd hgood (hnone r f hhashed hold)
      · rw [AList.lookup_insert_ne heq]
        exact hhashed
  · rcases hindex ch r hch with ⟨rfl, rfl⟩ | hold
    · rw [AList.lookup_insert] at hf
      rw [← Option.some.inj hf]
    · rcases hlookup r f hf with ⟨rfl, rfl⟩ | ⟨-, hf⟩
      · obtain ⟨x, hx⟩ := h.mapped ch r hold
        exact absurd hx (hfresh x)
      · exact h.hashes ch r f hold hf
  · rcases hg with hg | rfl
    · exact ⟨Or.inl (h.granted g hg).1, (h.granted g hg).2⟩
    · refine ⟨Or.inr ⟨rfl, rfl⟩, ?_, le_rfl⟩
      rw [← hr, String.toList_append]
      exact List.prefix_append _ _
  · rcases hg with hg | rfl
    · obtain ⟨f, hf, hexpires⟩ := h.alive g hg hgood
      refine ⟨f, ?_, hexpires⟩
      rw [AList.lookup_insert_ne fun heq => hfresh _ (heq ▸ (h.granted g hg).1), hf]
    · exact ⟨_, AList.lookup_insert _, le_rfl⟩
  · refine h.stable_cons (fun g hg hgood hsame => ?_) hg hg' hitems hle hlt
    obtain ⟨hch, e, he, hlive⟩ := h.finds hapart hg hgood hsame
    exact absurd hlive (hnone g.ref e hch he)

/-- The index forgets a ref that is no longer good. -/
theorem Knows.forget (h : Knows py ttl now s Denotes Granted) {e : RefEntry V}
    (hch : s.hashToRef.lookup ch = some ref) (he : s.refs.lookup ref = some e)
    (hold : ¬now < e.expiresAt) :
    Knows py ttl now { s with hashToRef := s.hashToRef.erase ch } Denotes Granted :=
  { h with
    mapped := fun ch' r hr => by
      by_cases heq : ch' = ch
      · subst heq
        exact absurd hr (by simp)
      · rw [AList.lookup_erase_ne heq] at hr
        exact h.mapped ch' r hr
    hashed := fun r f hf hlive => by
      have hhashed := h.hashed r f hf hlive
      have hne : f.canonical.canonicalHash py ≠ ch := by
        rintro rfl
        obtain rfl := Option.some.inj (hhashed.symm.trans hch)
        obtain rfl := Option.some.inj (hf.symm.trans he)
        exact hold hlive
      rw [AList.lookup_erase_ne hne]
      exact hhashed
    hashes := fun ch' r f hr hf => by
      by_cases heq : ch' = ch
      · subst heq
        exact absurd hr (by simp)
      · rw [AList.lookup_erase_ne heq] at hr
        exact h.hashes ch' r f hr hf }

/-- **One item of `mint`** is granted a ref. -/
theorem Knows.mintItem (h : Knows py ttl now s Denotes Granted) (hpre : pre ∈ refPrefixes)
    (hapart : TellsApart py now s pre item) :
    Knows py ttl now (s.mintItem py ttl now pre item).2
      (fun r x => Denotes r x ∨ r = (s.mintItem py ttl now pre item).1 ∧ x = item)
      (fun g => Granted g ∨ g = ⟨now, item, pre, (s.mintItem py ttl now pre item).1⟩) := by
  unfold TenantStore.mintItem
  simp only
  split
  · rename_i ref e hfound
    obtain ⟨r, hch, hr⟩ := Option.bind_eq_some_iff.mp hfound
    obtain ⟨f, he, hpair⟩ := Option.map_eq_some_iff.mp hr
    obtain ⟨rfl, rfl⟩ := Prod.mk.inj hpair
    split
    · exact h.renew hapart hch he ‹_›
    · refine (h.forget hch he ‹_›).mintNew hpre hapart fun ref' e' hch' => ?_
      exact absurd hch' (by simp)
  · rename_i hnone
    refine h.mintNew hpre hapart fun ref e hch he => ?_
    rw [hch, Option.bind_some, he] at hnone
    exact absurd hnone (by simp)

/-! ## A call -/

section Calls

/-- The hash tells every item of the call apart, each at its turn. -/
def distinguishes [DecidableEq V] (py : PyRuntime V) (ttl now : ℚ) (kind : String) :
    Nat → List (RefItem V) → TenantStore V → Bool
  | _, [], _ => true
  | idx, item :: rest, s =>
      if 1000 ≤ idx then true
      else
        match prefixFor kind item with
        | .error _ => true
        | .ok pre => decide (TellsApart py now s pre item) &&
            distinguishes py ttl now kind (idx + 1) rest (s.mintItem py ttl now pre item).2

/-- `refs` gives this ref to an item below the cap. -/
def GrantedBy (now : ℚ) (kind : String) (idx : Nat) (items : List (RefItem V)) (refs : List String)
    (g : Grant V) : Prop :=
  ∃ i, idx + i < 1000 ∧ items[i]? = some g.item ∧ refs[i]? = some g.ref ∧ g.time = now ∧
    prefixFor kind g.item = .ok g.pre

/-- What an answer of `mint` grants. -/
def GrantedIn (now : ℚ) (kind : String) (idx : Nat) (items : List (RefItem V)) :
    Except RefValueError (List String) → Grant V → Prop
  | .ok refs, g => GrantedBy now kind idx items refs g
  | .error _, _ => False

theorem GrantedBy.cons {kind : String} {idx : Nat} {items : List (RefItem V)} {refs : List String}
    {g : Grant V} (h : GrantedBy now kind idx (item :: items) (ref :: refs) g)
    (hpre : prefixFor kind item = .ok pre) :
    g = ⟨now, item, pre, ref⟩ ∨ GrantedBy now kind (idx + 1) items refs g := by
  obtain ⟨i, hi, hitem, href, htime, hfront⟩ := h
  cases i with
  | zero =>
    obtain rfl : item = g.item := Option.some.inj hitem
    obtain rfl : ref = g.ref := Option.some.inj href
    obtain rfl : pre = g.pre := Except.ok.inj (hpre.symm.trans hfront)
    subst htime
    exact Or.inl rfl
  | succ i => exact Or.inr ⟨i, by omega, hitem, href, htime, hfront⟩

theorem not_grantedIn_of_full {kind : String} {idx : Nat} (hfull : 1000 ≤ idx)
    (items : List (RefItem V)) (answer : Except RefValueError (List String)) (g : Grant V) :
    ¬GrantedIn now kind idx items answer g := by
  cases answer with
  | error e => exact id
  | ok refs =>
    rintro ⟨i, hi, -⟩
    omega

/-- Behind the cap, nothing is minted. -/
theorem mintItems_full {kind : String} {idx : Nat} (hfull : 1000 ≤ idx) (items : List (RefItem V))
    (s : TenantStore V) : (TenantStore.mintItems py ttl now kind idx items s).2 = s := by
  induction items generalizing idx with
  | nil => rfl
  | cons item rest ih =>
    rw [TenantStore.mintItems, if_pos hfull]
    exact ih (Nat.le_succ_of_le hfull)

/-- An answer has a ref for each item. -/
theorem length_mintItems {kind : String} {idx : Nat} {items : List (RefItem V)} {refs : List String}
    (h : (TenantStore.mintItems py ttl now kind idx items s).1 = .ok refs) :
    refs.length = items.length := by
  induction items generalizing idx s refs with
  | nil =>
    obtain rfl := Except.ok.inj h
    rfl
  | cons item rest ih =>
    have hcons : ∀ (answer : Except RefValueError (List String)) (ref : String),
        answer.map (ref :: ·) = .ok refs → ∃ refs', answer = .ok refs' ∧ refs = ref :: refs' := by
      intro answer ref hanswer
      cases answer with
      | error e => exact absurd hanswer (by simp [Except.map])
      | ok refs' => exact ⟨refs', rfl, (Except.ok.inj hanswer).symm⟩
    rw [TenantStore.mintItems] at h
    split at h
    · obtain ⟨refs', hrest, rfl⟩ := hcons _ _ h
      rw [List.length_cons, List.length_cons, ih hrest]
    · split at h
      · exact absurd h (by simp)
      · obtain ⟨refs', hrest, rfl⟩ := hcons _ _ h
        rw [List.length_cons, List.length_cons, ih hrest]

/-- **All items of `mint`**: each below the cap is granted the ref that is answered for it. -/
theorem Knows.mintItems [DecidableEq V] {kind : String} {idx : Nat} {items : List (RefItem V)}
    (h : Knows py ttl now s Denotes Granted)
    (hdistinguishes : distinguishes py ttl now kind idx items s = true) :
    ∃ Denotes', (∀ ref item, Denotes ref item → Denotes' ref item) ∧
      Knows py ttl now (TenantStore.mintItems py ttl now kind idx items s).2 Denotes' fun g =>
        Granted g ∨ GrantedIn now kind idx items (TenantStore.mintItems py ttl now kind idx items s).1 g := by
  induction items generalizing idx s Denotes Granted with
  | nil =>
    refine ⟨Denotes, fun _ _ => id, h.fewer fun g hg => hg.resolve_right ?_⟩
    rintro ⟨i, -, hitem, -⟩
    exact absurd hitem (by simp)
  | cons item rest ih =>
    by_cases hfull : 1000 ≤ idx
    · rw [mintItems_full hfull]
      exact ⟨Denotes, fun _ _ => id,
        h.fewer fun g hg => hg.resolve_right (not_grantedIn_of_full hfull _ _ g)⟩
    · rw [distinguishes, if_neg hfull] at hdistinguishes
      rw [TenantStore.mintItems, if_neg hfull]
      cases hpre : prefixFor kind item with
      | error e =>
        simp only
        exact ⟨Denotes, fun _ _ => id, h.fewer fun g hg => hg.resolve_right id⟩
      | ok pre =>
        simp only [hpre, Bool.and_eq_true, decide_eq_true_eq] at hdistinguishes ⊢
        have hitem := h.mintItem (mem_refPrefixes hpre) hdistinguishes.1
        obtain ⟨Denotes', hsub, hknows⟩ := ih hitem hdistinguishes.2
        refine ⟨Denotes', fun ref x hx => hsub ref x (Or.inl hx), hknows.fewer fun g hg => ?_⟩
        rcases hg with hg | hg
        · exact Or.inl (Or.inl hg)
        · cases hrest : (TenantStore.mintItems py ttl now kind (idx + 1) rest
              (s.mintItem py ttl now pre item).2).1 with
          | error e =>
            rw [hrest] at hg
            exact hg.elim
          | ok refs =>
            rw [hrest] at hg
            rcases GrantedBy.cons hg hpre with rfl | hg
            · exact Or.inl (Or.inr rfl)
            · exact Or.inr hg

end Calls

end TenantStore

/-! ## Every run -/

inductive RefOp (V : Type) where
  | mint (now : ℚ) (items : List (RefItem V)) (apiKeyId kind : String)
  | resolve (now : ℚ) (ref apiKeyId : String)
  | evict (now : ℚ) (apiKeyId : String)

inductive RefAnswer (V : Type) where
  | refs (refs : List String)
  | valueError (e : RefValueError)
  | item (item : RefItem V)
  | refError (e : RefError)
  | swept

structure RefCall (V : Type) where
  op : RefOp V
  answer : RefAnswer V

namespace RefOp

variable {V : Type}

def now : RefOp V → ℚ
  | mint now _ _ _ => now
  | resolve now _ _ => now
  | evict now _ => now

def apiKeyId : RefOp V → String
  | mint _ _ apiKeyId _ => apiKeyId
  | resolve _ _ apiKeyId => apiKeyId
  | evict _ apiKeyId => apiKeyId

def perform (py : PyRuntime V) (ttl : ℚ) (m : RefMinter V) : RefOp V → RefAnswer V × RefMinter V
  | mint now items apiKeyId kind =>
      let (refs, m) := m.mint py ttl now items apiKeyId kind
      (match refs with
        | .ok refs => .refs refs
        | .error e => .valueError e, m)
  | resolve now ref apiKeyId =>
      let (answer, m) := m.resolve now ref apiKeyId
      (match answer with
        | .ok item => .item item
        | .error e => .refError e, m)
  | evict now apiKeyId => (.swept, m.evict now apiKeyId)

end RefOp

/-- A minter, its clock, and the calls so far, newest first. -/
structure RefRun (V : Type) where
  minter : RefMinter V := {}
  clock : ℚ
  log : List (RefCall V) := []

namespace RefRun

variable {V : Type} (py : PyRuntime V) (ttl : ℚ)

def exec (p : RefRun V) (op : RefOp V) : RefRun V where
  minter := (op.perform py ttl p.minter).2
  clock := op.now
  log := ⟨op, (op.perform py ttl p.minter).1⟩ :: p.log

/-- **The hash tells the items apart**, where the call mints any. -/
def tellsApart [DecidableEq V] (p : RefRun V) : RefOp V → Bool
  | .mint now items apiKeyId kind => TenantStore.distinguishes py ttl now kind 0 items
      (((p.minter.stores.lookup apiKeyId).getD {}).evictExpired now)
  | _ => true

end RefRun

section Runs

variable {V : Type} {py : PyRuntime V} {ttl : ℚ} {m m' : RefMinter V} {op : RefOp V} {k : String}

/-! ### Tenants -/

theorem lookup_evict (now : ℚ) (apiKeyId : String) :
    (m.evict now apiKeyId).stores.lookup k =
      if k = apiKeyId then (m.stores.lookup k).map (·.evictExpired now) else m.stores.lookup k := by
  unfold RefMinter.evict
  by_cases hk : k = apiKeyId
  · subst hk
    cases hstore : m.stores.lookup k with
    | none => simp [hstore]
    | some store => simp
  · rw [if_neg hk]
    split
    · rfl
    · rw [AList.lookup_insert_ne hk]

/-- **A call leaves the stores of the others alone.** -/
theorem lookup_perform_ne (hk : k ≠ op.apiKeyId) :
    (op.perform py ttl m).2.stores.lookup k = m.stores.lookup k := by
  cases op with
  | mint now items apiKeyId kind =>
    simp only [RefOp.perform, RefMinter.mint]
    exact AList.lookup_insert_ne hk
  | resolve now ref apiKeyId =>
    simp only [RefOp.perform, RefMinter.resolve]
    cases m.stores.lookup apiKeyId with
    | none => rfl
    | some store => exact (lookup_evict now apiKeyId).trans (if_neg hk)
  | evict now apiKeyId => exact (lookup_evict now apiKeyId).trans (if_neg hk)

/-- **And looks at none but its own.** -/
theorem perform_congr (h : m.stores.lookup op.apiKeyId = m'.stores.lookup op.apiKeyId) :
    (op.perform py ttl m).1 = (op.perform py ttl m').1 ∧
    (op.perform py ttl m).2.stores.lookup op.apiKeyId =
      (op.perform py ttl m').2.stores.lookup op.apiKeyId := by
  cases op with
  | mint now items apiKeyId kind =>
    simp only [RefOp.apiKeyId] at h
    simp only [RefOp.perform, RefMinter.mint, RefOp.apiKeyId, AList.lookup_insert, h, and_self]
  | resolve now ref apiKeyId =>
    simp only [RefOp.apiKeyId] at h
    simp only [RefOp.perform, RefMinter.resolve, RefOp.apiKeyId, h]
    cases m'.stores.lookup apiKeyId with
    | none => exact ⟨rfl, h⟩
    | some store =>
      refine ⟨rfl, ?_⟩
      simp only [lookup_evict, if_true, h]
  | evict now apiKeyId =>
    simp only [RefOp.apiKeyId] at h
    simp only [RefOp.perform, RefOp.apiKeyId, lookup_evict, if_true, h, and_self]

/-- **Tenants never meet**: to each of them it is as if there were no other. -/
theorem refs_own (clock : ℚ) (ops : List (RefOp V)) (k : String) :
    (ops.foldl (RefRun.exec py ttl) { clock }).log.filter (·.op.apiKeyId = k) =
        ((ops.filter (·.apiKeyId = k)).foldl (RefRun.exec py ttl) { clock }).log ∧
    (ops.foldl (RefRun.exec py ttl) { clock }).minter.stores.lookup k =
      ((ops.filter (·.apiKeyId = k)).foldl (RefRun.exec py ttl) { clock }).minter.stores.lookup k := by
  induction ops using List.reverseRecOn with
  | nil => exact ⟨rfl, rfl⟩
  | append_singleton ops op ih =>
    obtain ⟨hlog, hstore⟩ := ih
    rw [List.foldl_append, List.foldl_cons, List.foldl_nil, List.filter_append]
    by_cases hk : op.apiKeyId = k
    · subst hk
      obtain ⟨hanswer, hlookup⟩ := @perform_congr V py ttl _ _ op hstore
      rw [List.filter_cons_of_pos (by simp), List.filter_nil, List.foldl_append, List.foldl_cons,
        List.foldl_nil]
      refine ⟨?_, hlookup⟩
      rw [RefRun.exec, RefRun.exec, List.filter_cons_of_pos (by simp), hanswer, hlog]
    · rw [List.filter_cons_of_neg (by simp [hk]), List.filter_nil, List.append_nil]
      refine ⟨?_, ?_⟩
      · rw [RefRun.exec, List.filter_cons_of_neg (by simp [hk]), hlog]
      · rw [RefRun.exec, lookup_perform_ne (Ne.symm hk), hstore]

/-! ### The law -/

/-- What `mint` has granted to the tenant. -/
def GrantedTo (k : String) (log : List (RefCall V)) (g : TenantStore.Grant V) : Prop :=
  ∃ items kind refs, ⟨.mint g.time items k kind, .refs refs⟩ ∈ log ∧
    TenantStore.GrantedBy g.time kind 0 items refs g

/-- What `resolve` has answered to the tenant. -/
def ResolvedTo (k : String) (log : List (RefCall V)) (ref : String) (item : RefItem V) : Prop :=
  ∃ now, ⟨.resolve now ref k, .item item⟩ ∈ log

/-- The law, for one tenant. -/
structure RefRun.Lawful (py : PyRuntime V) (ttl : ℚ) (p : RefRun V) (k : String) : Prop where
  /-- There is a ref for each item. -/
  answered : ∀ now items kind refs, ⟨.mint now items k kind, .refs refs⟩ ∈ p.log →
    refs.length = items.length
  /-- A ref denotes one dict. -/
  one : ∀ g g', GrantedTo k p.log g → GrantedTo k p.log g' → g.ref = g'.ref → g.item.Same g'.item
  resolved : ∀ g item, GrantedTo k p.log g → ResolvedTo k p.log g.ref item → item.Same g.item
  /-- It has the prefix of the kind. -/
  prefixed : ∀ g, GrantedTo k p.log g → g.pre.toList <+: g.ref.toList
  /-- It resolves, until it expires. -/
  resolves : ∀ g, GrantedTo k p.log g → ∀ now, p.clock ≤ now → now < g.time + ttl →
    ∃ item, (p.minter.resolve now g.ref k).1 = .ok item ∧ item.Same g.item
  /-- Equal items have the same ref, until it expires. -/
  stable : ∀ g g', GrantedTo k p.log g → GrantedTo k p.log g' → g.item.Same g'.item →
    g.time ≤ g'.time → g'.time < g.time + ttl → g.ref = g'.ref

/-- What every such run keeps, for each tenant. -/
structure RefRun.Kept (py : PyRuntime V) (ttl : ℚ) (p : RefRun V) (k : String)
    (Denotes : String → RefItem V → Prop) : Prop where
  answered : ∀ now items kind refs, ⟨.mint now items k kind, .refs refs⟩ ∈ p.log →
    refs.length = items.length
  knows : ((p.minter.stores.lookup k).getD {}).Knows py ttl p.clock Denotes (GrantedTo k p.log)
  resolved : ∀ ref item, ResolvedTo k p.log ref item → Denotes ref item

theorem RefRun.Kept.lawful {p : RefRun V} {Denotes : String → RefItem V → Prop}
    (h : p.Kept py ttl k Denotes) : p.Lawful py ttl k where
  answered := h.answered
  one g g' hg hg' href := by
    refine h.knows.one g.ref _ _ (h.knows.granted g hg).1 ?_
    rw [href]
    exact (h.knows.granted g' hg').1
  resolved g item hg hitem :=
    h.knows.one g.ref _ _ (h.resolved g.ref item hitem) (h.knows.granted g hg).1
  prefixed g hg := (h.knows.granted g hg).2.1
  resolves g hg now hnow hgood := by
    obtain ⟨e, he, hexpires⟩ := h.knows.alive g hg (lt_of_le_of_lt hnow hgood)
    refine ⟨e.canonical, ?_, h.knows.one g.ref _ _ (h.knows.entry g.ref e he)
      (h.knows.granted g hg).1⟩
    cases hstore : p.minter.stores.lookup k with
    | none =>
      rw [hstore] at he
      exact absurd he (by simp)
    | some store =>
      rw [hstore] at he
      have hlive := TenantStore.lookup_evictExpired.mpr ⟨he, lt_of_lt_of_le hgood hexpires⟩
      simp only [Option.getD_some] at hlive
      simp only [RefMinter.resolve, hstore, hlive]
  stable := h.knows.stable

theorem GrantedTo.of_cons_ne {call : RefCall V} {log : List (RefCall V)} {g : TenantStore.Grant V}
    (h : GrantedTo k (call :: log) g) (hk : k ≠ call.op.apiKeyId) : GrantedTo k log g := by
  obtain ⟨items, kind, refs, hmem, hgranted⟩ := h
  cases List.mem_cons.mp hmem with
  | inl heq => exact absurd (heq ▸ rfl) hk
  | inr hold => exact ⟨items, kind, refs, hold, hgranted⟩

theorem ResolvedTo.of_cons {call : RefCall V} {log : List (RefCall V)} {ref : String}
    {item : RefItem V} (h : ResolvedTo k (call :: log) ref item) :
    (∃ now, call = ⟨.resolve now ref k, .item item⟩) ∨ ResolvedTo k log ref item := by
  obtain ⟨now, hmem⟩ := h
  cases List.mem_cons.mp hmem with
  | inl heq => exact Or.inl ⟨now, heq.symm⟩
  | inr hold => exact Or.inr ⟨now, hold⟩

/-- Calls of the others. -/
theorem RefRun.Kept.other {p : RefRun V} {Denotes : String → RefItem V → Prop}
    (h : p.Kept py ttl k Denotes) (hclock : p.clock ≤ op.now) (hk : k ≠ op.apiKeyId) :
    (p.exec py ttl op).Kept py ttl k Denotes := by
  refine ⟨fun now items kind refs hmem => ?_, ?_, fun ref item hresolved => ?_⟩
  · cases List.mem_cons.mp hmem with
    | inl heq => exact absurd (congrArg (fun call => call.op.apiKeyId) heq) hk
    | inr hold => exact h.answered now items kind refs hold
  · have hstore : (p.exec py ttl op).minter.stores.lookup k = p.minter.stores.lookup k :=
      lookup_perform_ne hk
    rw [hstore]
    exact (h.knows.later hclock).fewer fun g hg => hg.of_cons_ne hk
  · cases hresolved.of_cons with
    | inl hnew =>
      obtain ⟨now, heq⟩ := hnew
      exact absurd (congrArg (fun call => call.op.apiKeyId) heq).symm hk
    | inr hold => exact h.resolved ref item hold

/-- A call that mints nothing leaves the store, or sweeps it. -/
theorem RefRun.Kept.sweep {p : RefRun V} {Denotes : String → RefItem V → Prop} {minter : RefMinter V}
    {answer : RefAnswer V} {now : ℚ} (h : p.Kept py ttl k Denotes) (hclock : p.clock ≤ now)
    (hminter : minter.stores.lookup k = (p.minter.stores.lookup k).map (·.evictExpired now))
    (hop : ∀ now items apiKeyId kind, op ≠ .mint now items apiKeyId kind)
    (hanswer : ∀ now ref item, op = .resolve now ref k → answer = .item item → Denotes ref item) :
    ({ minter, clock := now, log := ⟨op, answer⟩ :: p.log } : RefRun V).Kept py ttl k Denotes := by
  have hswept : (minter.stores.lookup k).getD {} = ((p.minter.stores.lookup k).getD {}) ∨
      (minter.stores.lookup k).getD {} = ((p.minter.stores.lookup k).getD {}).evictExpired now := by
    rw [hminter]
    cases p.minter.stores.lookup k with
    | none => exact Or.inl rfl
    | some store => exact Or.inr rfl
  have hknows := h.knows.later hclock
  have hgranted : ∀ g, GrantedTo k (⟨op, answer⟩ :: p.log) g → GrantedTo k p.log g := by
    rintro g ⟨items, kind, refs, hmem, hg⟩
    cases List.mem_cons.mp hmem with
    | inl heq => exact absurd (congrArg RefCall.op heq).symm (hop _ _ _ _)
    | inr hold => exact ⟨items, kind, refs, hold, hg⟩
  refine ⟨fun t items kind refs hmem => ?_, ?_, fun ref item hresolved => ?_⟩
  · cases List.mem_cons.mp hmem with
    | inl heq => exact absurd (congrArg RefCall.op heq).symm (hop _ _ _ _)
    | inr hold => exact h.answered t items kind refs hold
  · rcases hswept with heq | heq
    · rw [heq]
      exact hknows.fewer hgranted
    · rw [heq]
      exact hknows.evictExpired.fewer hgranted
  · cases hresolved.of_cons with
    | inl hnew =>
      obtain ⟨t, heq⟩ := hnew
      exact hanswer t ref item (congrArg RefCall.op heq) (congrArg RefCall.answer heq)
    | inr hold => exact h.resolved ref item hold

/-- **A call of the tenant** itself. -/
theorem RefRun.Kept.own [DecidableEq V] {p : RefRun V} {Denotes : String → RefItem V → Prop}
    (h : p.Kept py ttl op.apiKeyId Denotes) (hclock : p.clock ≤ op.now)
    (hapart : p.tellsApart py ttl op = true) :
    ∃ Denotes', (p.exec py ttl op).Kept py ttl op.apiKeyId Denotes' := by
  cases op with
  | resolve now ref apiKeyId =>
    refine ⟨Denotes, h.sweep hclock ?_ (by simp) fun t ref' item hop hanswer => ?_⟩
    · simp only [RefOp.perform, RefMinter.resolve, RefOp.apiKeyId]
      cases hstore : p.minter.stores.lookup apiKeyId with
      | none => simp [hstore]
      | some store => simp [lookup_evict, hstore, RefOp.now]
    · obtain ⟨rfl, rfl, -⟩ := RefOp.resolve.inj hop
      simp only [RefOp.perform, RefMinter.resolve] at hanswer
      cases hstore : p.minter.stores.lookup apiKeyId with
      | none =>
        rw [hstore] at hanswer
        exact absurd hanswer (by simp)
      | some store =>
        rw [hstore] at hanswer
        simp only at hanswer
        cases hentry : (store.evictExpired now).refs.lookup ref with
        | none =>
          rw [hentry] at hanswer
          exact absurd hanswer (by simp)
        | some entry =>
          rw [hentry] at hanswer
          obtain rfl := RefAnswer.item.inj hanswer
          refine h.knows.entry ref entry ?_
          simp only [RefOp.apiKeyId, hstore, Option.getD_some]
          exact (TenantStore.lookup_evictExpired.mp hentry).1
  | evict now apiKeyId =>
    refine ⟨Denotes, h.sweep hclock ?_ (by simp) (by simp)⟩
    simp [RefOp.perform, RefOp.apiKeyId, RefOp.now, lookup_evict]
  | mint now items apiKeyId kind =>
    simp only [RefOp.apiKeyId] at h ⊢
    simp only [RefOp.now] at hclock
    obtain ⟨Denotes', hsub, hknows⟩ := (h.knows.later hclock).evictExpired.mintItems hapart
    have hstore : ((p.exec py ttl (.mint now items apiKeyId kind)).minter.stores.lookup apiKeyId).getD {} =
        (TenantStore.mintItems py ttl now kind 0 items
          (((p.minter.stores.lookup apiKeyId).getD {}).evictExpired now)).2 := by
      simp [RefRun.exec, RefOp.perform, RefMinter.mint]
    have hnew : ∀ t items' kind' refs, (⟨.mint t items' apiKeyId kind', .refs refs⟩ : RefCall V) =
        ⟨.mint now items apiKeyId kind, (RefOp.perform py ttl p.minter (.mint now items apiKeyId kind)).1⟩ →
        t = now ∧ items' = items ∧ kind' = kind ∧
          (TenantStore.mintItems py ttl now kind 0 items
            (((p.minter.stores.lookup apiKeyId).getD {}).evictExpired now)).1 = .ok refs := by
      intro t items' kind' refs heq
      obtain ⟨hop, hanswer⟩ := RefCall.mk.inj heq
      obtain ⟨rfl, rfl, -, rfl⟩ := RefOp.mint.inj hop
      refine ⟨rfl, rfl, rfl, ?_⟩
      simp only [RefOp.perform, RefMinter.mint] at hanswer
      split at hanswer
      · rename_i hok
        rw [hok, RefAnswer.refs.inj hanswer]
      · exact absurd hanswer (by simp)
    refine ⟨Denotes', fun t items' kind' refs hmem => ?_, ?_, fun ref item hresolved => ?_⟩
    · cases List.mem_cons.mp hmem with
      | inl heq =>
        obtain ⟨-, rfl, -, hok⟩ := hnew t items' kind' refs heq
        exact TenantStore.length_mintItems hok
      | inr hold => exact h.answered t items' kind' refs hold
    · rw [hstore]
      refine hknows.fewer fun g hg => ?_
      obtain ⟨items', kind', refs, hmem, hgranted⟩ := hg
      cases List.mem_cons.mp hmem with
      | inl heq =>
        obtain ⟨htime, rfl, rfl, hok⟩ := hnew g.time items' kind' refs heq
        rw [hok]
        rw [htime] at hgranted
        exact Or.inr hgranted
      | inr hold => exact Or.inl ⟨items', kind', refs, hold, hgranted⟩
    · cases hresolved.of_cons with
      | inl hnew =>
        obtain ⟨t, heq⟩ := hnew
        exact absurd (congrArg RefCall.op heq) (by simp)
      | inr hold => exact hsub ref item (h.resolved ref item hold)

def RefRun.IsKept (py : PyRuntime V) (ttl : ℚ) (p : RefRun V) (k : String) : Prop :=
  ∃ Denotes, p.Kept py ttl k Denotes

theorem RefRun.IsKept.exec [DecidableEq V] {p : RefRun V} (h : p.IsKept py ttl k)
    (hclock : p.clock ≤ op.now) (hapart : p.tellsApart py ttl op = true) :
    (p.exec py ttl op).IsKept py ttl k := by
  obtain ⟨Denotes, h⟩ := h
  by_cases hk : k = op.apiKeyId
  · subst hk
    exact h.own hclock hapart
  · exact ⟨Denotes, h.other hclock hk⟩

theorem isKept_start (clock : ℚ) : ({ clock } : RefRun V).IsKept py ttl k := by
  refine ⟨fun _ _ => False, fun now items kind refs h => absurd h (by simp), ?_, ?_⟩
  · refine TenantStore.knows_empty.fewer fun g hg => ?_
    obtain ⟨_, _, _, hmem, -⟩ := hg
    exact absurd hmem (by simp)
  · rintro ref item ⟨now, hmem⟩
    exact absurd hmem (by simp)

/-- **The law of the refs**, in every run in which the clock goes on and the hash tells the items of
    each call apart: whatever is minted, resolved and swept, for however many tenants, to each of
    them it is as if there were no other; a ref denotes one dict, has the prefix that was asked for
    and resolves until it expires; and equal items have one ref until then. -/
theorem refs_law_run [DecidableEq V] (py : PyRuntime V) (ttl clock : ℚ) {ops : List (RefOp V)}
    {p : RefRun V}
    (hrun : Machine.Runs (fun p op => some (RefRun.exec py ttl p op))
      (fun p op => p.clock ≤ op.now ∧ p.tellsApart py ttl op = true) { clock } ops p) (k : String) :
    p.log.filter (·.op.apiKeyId = k) =
      ((ops.filter (·.apiKeyId = k)).foldl (RefRun.exec py ttl) { clock }).log ∧
    p.Lawful py ttl k := by
  obtain ⟨Denotes, hkept⟩ : p.IsKept py ttl k := by
    refine @Machine.Runs.invariant _ _ _ _ (fun p => p.IsKept py ttl k)
      (fun p op p' hstep hok h => ?_) _ _ _ hrun (isKept_start clock)
    obtain rfl := Option.some.inj hstep
    exact h.exec hok.1 hok.2
  refine ⟨?_, hkept.lawful⟩
  rw [hrun.eq_foldl]
  exact (refs_own clock ops k).1

end Runs

/-! ## What the hash does not see -/

namespace FieldRows

/-- Strings and `None`, under a polynomial hash. -/
def py : PyRuntime (Option String) where
  str v := some (v.getD "None")
  hash pairs := pairs.foldl (fun h p =>
    (p.1.toList ++ p.2.toList).foldl (fun h c => 31 * h + (c.toNat : Int)) (1000003 * h)) 7

/-- A row of `list_fields`, with its related model. -/
def row (related : Option String) : RefItem (Option String) where
  oid := 0
  data := ⟨[("field_name", some "partner_id"), ("related", related)], by simp⟩

def mint (now : ℚ) (items : List (RefItem (Option String))) (kind : String) :
    RefOp (Option String) := .mint now items "1" kind

def start : RefRun (Option String) := { clock := 0 }

def after (ops : List (RefOp (Option String))) : RefRun (Option String) :=
  ops.foldl (RefRun.exec py 300) start

theorem run_after {ops : List (RefOp (Option String))}
    (h : (Machine.replay (fun p op => some (RefRun.exec py 300 p op))
      (fun p op => decide (p.clock ≤ op.now) && p.tellsApart py 300 op) ops start).isSome) :
    Machine.Runs (fun p op => some (RefRun.exec py 300 p op))
      (fun p op => p.clock ≤ op.now ∧ p.tellsApart py 300 op = true) start ops (after ops) := by
  obtain ⟨p, hp⟩ := Option.isSome_iff_exists.mp h
  have hrun := Machine.runs_of_replay hp
  rw [hrun.eq_foldl] at hrun
  exact hrun.imp fun p op hok => by simpa using hok

/-- The refs of an answer. -/
def refsOf : RefAnswer (Option String) → Option (List String)
  | .refs refs => some refs
  | _ => none

theorem eq_of_refsOf {answer : RefAnswer (Option String)} {refs : List String}
    (h : refsOf answer = some refs) : answer = .refs refs := by
  cases answer with
  | refs refs' => rw [Option.some.inj h]
  | _ => exact absurd h (by simp [refsOf])

/-- A list, and the same list with one more row, later. -/
def listings : List (RefOp (Option String)) :=
  [mint 0 [row (some "sale.order")] "auto", mint 10 [row (some "res.users"), row (some "sale.order")] "auto"]

/-- The row that was there keeps its ref. -/
theorem refs_law_listings :
    (after listings).log.map (fun call => refsOf call.answer) = [some ["f2", "f1"], some ["f1"]] ∧
    (after listings).Lawful py 300 "1" :=
  ⟨by decide +kernel, (refs_law_run py 300 0 (run_after (by decide +kernel)) "1").2⟩

/-- A field without a related model, and one with a model of that name. -/
def nulls : List (RefOp (Option String)) := [mint 0 [row none] "auto", mint 1 [row (some "None")] "auto"]

/-- One row under two kinds. -/
def kinds : List (RefOp (Option String)) := [mint 0 [row none] "view", mint 1 [row none] "method"]

theorem granted_of_log {p : RefRun (Option String)} {call : RefCall (Option String)} {now : ℚ}
    {item : RefItem (Option String)} {kind pre ref : String} (hmem : call ∈ p.log)
    (hop : call.op = mint now [item] kind) (hanswer : refsOf call.answer = some [ref])
    (hpre : prefixFor kind item = .ok pre) : GrantedTo "1" p.log ⟨now, item, pre, ref⟩ := by
  refine ⟨[item], kind, [ref], ?_, 0, by decide, rfl, rfl, rfl, hpre⟩
  rw [← eq_of_refsOf hanswer, ← mint, ← hop]
  exact hmem

/-- **`None` and `'None'` get one ref**, and a row that is known under one kind has no ref of
    another. -/
theorem refs_law_fails :
    (Machine.Runs (fun p op => some (RefRun.exec py 300 p op)) (fun p op => p.clock ≤ op.now) start
      nulls (after nulls) ∧ ¬(after nulls).Lawful py 300 "1") ∧
    (Machine.Runs (fun p op => some (RefRun.exec py 300 p op)) (fun p op => p.clock ≤ op.now) start
      kinds (after kinds) ∧ ¬(after kinds).Lawful py 300 "1") := by
  refine ⟨⟨.cons rfl (by decide) (.cons rfl (by decide) (.nil _)), fun h => ?_⟩,
    ⟨.cons rfl (by decide) (.cons rfl (by decide) (.nil _)), fun h => ?_⟩⟩
  · have hfirst : GrantedTo "1" (after nulls).log ⟨0, row none, "f", "f1"⟩ :=
      granted_of_log (List.mem_cons_of_mem _ List.mem_cons_self) rfl (by decide) (by rfl)
    have hsecond : GrantedTo "1" (after nulls).log ⟨1, row (some "None"), "f", "f1"⟩ :=
      granted_of_log List.mem_cons_self rfl (by decide +kernel) (by rfl)
    exact absurd (h.one _ _ hfirst hsecond rfl "related") (by decide)
  · have hsecond : GrantedTo "1" (after kinds).log ⟨1, row none, "m", "v1"⟩ :=
      granted_of_log List.mem_cons_self rfl (by decide +kernel) (by rfl)
    exact absurd (h.prefixed _ hsecond) (by decide)

end FieldRows

end OdooSemantic
