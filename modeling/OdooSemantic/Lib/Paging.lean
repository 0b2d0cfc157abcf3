import Mathlib.Data.List.Sort
import Mathlib.Data.Prod.Lex

/-!
# Reading a sorted answer page by page

A query sorts its rows by a key and hands out a page of them. Among rows of one key each execution
of the query has an order of its own, so two pages that were asked for one after the other need not
be cut from the same list.

That does no harm where a page ends between two keys, or between rows that are the same
(`take_perm`). Where it ends inside a tie of different rows (`SplitTie`), there are executions that
show a row twice and another one never (`exists_not_perm`). `pages_perm_iff` says it of a whole
enumeration.
-/

namespace OdooSemantic
namespace Paging

variable {R K : Type} [LinearOrder K]

/-- How an execution sorts: by the key, and as it likes among equals. -/
structure RowOrder (key : R → K) where
  sort : List R → List R
  perm : ∀ rows, (sort rows).Perm rows
  sorted : ∀ rows, (sort rows).Pairwise fun a b => key a ≤ key b

variable {key : R → K}

/-- Ties are broken by a second key. -/
def RowOrder.byTie {J : Type} [LinearOrder J] (key : R → K) (tie : R → J) : RowOrder key where
  sort := List.insertionSort fun a b => toLex (key a, tie a) ≤ toLex (key b, tie b)
  perm := List.perm_insertionSort _
  sorted rows := by
    have hsorted := List.pairwise_insertionSort
      (fun a b => toLex (key a, tie a) ≤ toLex (key b, tie b)) rows
    exact hsorted.imp fun h => Prod.Lex.monotone_fst _ _ h

/-! ## What the first rows of a sorted list are -/

/-- Counting one thing or another, where nothing is both. -/
theorem countP_eq_add {A : Type} {p q q' : A → Bool} (hor : ∀ x, p x = (q x || q' x))
    (hnot : ∀ x, (q x && q' x) = false) (xs : List A) : xs.countP p = xs.countP q + xs.countP q' := by
  induction xs with
  | nil => rfl
  | cons x xs ih =>
    rw [List.countP_cons, List.countP_cons, List.countP_cons, ih, hor x]
    have hboth := hnot x
    cases hq : q x with
    | true =>
      rw [hq, Bool.true_and] at hboth
      simp [hboth]
      omega
    | false =>
      cases hq' : q' x with
      | true => simp; omega
      | false => simp

/-- A sorted list is what lies below a key, what has it, and what lies above. -/
theorem eq_filter_append {rows : List R} (h : rows.Pairwise fun a b => key a ≤ key b) (κ : K) :
    rows = rows.filter (key · < κ) ++ (rows.filter (key · = κ) ++ rows.filter (κ < key ·)) := by
  induction rows with
  | nil => rfl
  | cons a rows ih =>
    obtain ⟨ha, hrows⟩ := List.pairwise_cons.mp h
    rcases lt_trichotomy (key a) κ with hlt | heq | hgt
    · have hne : key a ≠ κ := hlt.ne
      have hngt : ¬κ < key a := hlt.not_gt
      simp only [List.filter_cons, hlt, hne, hngt, decide_true, decide_false, if_true,
        Bool.false_eq_true, if_false, List.cons_append]
      rw [← ih hrows]
    · have hbelow : rows.filter (key · < κ) = [] := by
        refine List.filter_eq_nil_iff.mpr fun b hb => ?_
        simpa [← heq] using ha b hb
      rw [hbelow, List.nil_append] at ih
      simp only [List.filter_cons, heq, lt_irrefl, decide_true, decide_false, if_true,
        Bool.false_eq_true, if_false, List.cons_append, hbelow, List.nil_append]
      rw [← ih hrows]
    · have hbelow : rows.filter (key · < κ) = [] := by
        refine List.filter_eq_nil_iff.mpr fun b hb => ?_
        simpa using hgt.le.trans (ha b hb)
      have hat : rows.filter (key · = κ) = [] := by
        refine List.filter_eq_nil_iff.mpr fun b hb => ?_
        simpa using (hgt.trans_le (ha b hb)).ne'
      rw [hbelow, hat, List.nil_append, List.nil_append] at ih
      have hne : key a ≠ κ := hgt.ne'
      have hnlt : ¬key a < κ := hgt.not_gt
      simp only [List.filter_cons, hgt, hne, hnlt, decide_true, decide_false, if_true,
        Bool.false_eq_true, if_false, hbelow, hat, List.nil_append]
      rw [← ih hrows]

section Counts

variable [DecidableEq R] {rows : List R} (h : rows.Pairwise fun a b => key a ≤ key b) {r : R} {n : ℕ}

include h

theorem count_take_eq : (rows.take n).count r = ((rows.filter (key · = key r)).take
    (n - rows.countP (key · < key r))).count r := by
  have hbelow : ((rows.filter (key · < key r)).take n).count r = 0 := by
    refine List.count_eq_zero.mpr fun hmem => ?_
    exact absurd (List.mem_filter.mp (List.mem_of_mem_take hmem)).2 (by simp)
  have habove : ∀ m, ((rows.filter (key r < key ·)).take m).count r = 0 := by
    refine fun m => List.count_eq_zero.mpr fun hmem => ?_
    exact absurd (List.mem_filter.mp (List.mem_of_mem_take hmem)).2 (by simp)
  conv_lhs => rw [eq_filter_append h (key r)]
  rw [List.take_append, List.take_append, List.count_append, List.count_append, hbelow, habove,
    Nat.zero_add, Nat.add_zero, List.countP_eq_length_filter]

/-- A row is not among those that lie below its key. -/
theorem count_take_of_le (hn : n ≤ rows.countP (key · < key r)) : (rows.take n).count r = 0 := by
  rw [count_take_eq h, Nat.sub_eq_zero_of_le hn, List.take_zero, List.count_nil]

/-- A row is among those up to its key, as often as in the list. -/
theorem count_take_of_ge (hn : rows.countP (key · ≤ key r) ≤ n) :
    (rows.take n).count r = rows.count r := by
  have hlength : rows.countP (key · ≤ key r) =
      rows.countP (key · < key r) + rows.countP (key · = key r) := by
    refine countP_eq_add (fun x => ?_) (fun x => ?_) rows
    · simp [le_iff_lt_or_eq]
    · by_cases hx : key x = key r <;> simp [hx]
  rw [count_take_eq h, List.take_of_length_le]
  · exact List.count_filter (by simp)
  · rw [← List.countP_eq_length_filter]
    omega

/-- Where no other row has its key, a row comes right behind those that lie below. -/
theorem count_take_of_pure (hpure : ∀ x ∈ rows, key x = key r → x = r) :
    (rows.take n).count r = min (rows.count r) (n - rows.countP (key · < key r)) := by
  have heq : rows.filter (key · = key r) = List.replicate (rows.count r) r := by
    rw [← List.filter_eq]
    refine List.filter_congr fun x hx => ?_
    by_cases hxr : x = r
    · simp [hxr]
    · have hkey : key x ≠ key r := fun hk => hxr (hpure x hx hk)
      simp [hkey, hxr]
  rw [count_take_eq h, heq, List.take_replicate, List.count_replicate_self, Nat.min_comm]

end Counts

/-! ## Where two executions agree -/

/-- Between the first `n` rows and the others stands a tie of rows that are not all the same. -/
def SplitTie (key : R → K) (rows : List R) (n : ℕ) : Prop :=
  ∃ r ∈ rows, ∃ r' ∈ rows, r' ≠ r ∧ key r' = key r ∧ rows.countP (key · < key r) < n ∧
    n < rows.countP (key · ≤ key r)

variable [DecidableEq R]

instance (rows : List R) (n : ℕ) : Decidable (SplitTie key rows n) :=
  inferInstanceAs (Decidable (∃ r ∈ rows, ∃ r' ∈ rows, _))

omit [DecidableEq R] in
theorem SplitTie.of_perm {rows rows' : List R} (h : rows.Perm rows') {n : ℕ}
    (hsplit : SplitTie key rows n) : SplitTie key rows' n := by
  obtain ⟨r, hr, r', hr', hne, hkey, hlow, hhigh⟩ := hsplit
  refine ⟨r, h.mem_iff.mp hr, r', h.mem_iff.mp hr', hne, hkey, ?_, ?_⟩
  · rwa [← h.countP_eq]
  · rwa [← h.countP_eq]

/-- **Where no tie is split, the first rows are the same in every execution.** -/
theorem take_perm {rows rows' : List R} (h : rows.Pairwise fun a b => key a ≤ key b)
    (h' : rows'.Pairwise fun a b => key a ≤ key b) (hperm : rows.Perm rows') {n : ℕ}
    (hsplit : ¬SplitTie key rows n) : (rows.take n).Perm (rows'.take n) := by
  refine List.perm_iff_count.mpr fun r => ?_
  have hlow := hperm.countP_eq fun x => decide (key x < key r)
  have hhigh := hperm.countP_eq fun x => decide (key x ≤ key r)
  by_cases hle : n ≤ rows.countP (key · < key r)
  · rw [count_take_of_le h hle, count_take_of_le h' (hlow ▸ hle)]
  · by_cases hge : rows.countP (key · ≤ key r) ≤ n
    · rw [count_take_of_ge h hge, count_take_of_ge h' (hhigh ▸ hge), hperm.count_eq]
    · by_cases hr : r ∈ rows
      · have hpure : ∀ x ∈ rows, key x = key r → x = r := by
          intro x hx hkey
          by_contra hne
          exact hsplit ⟨r, hr, x, hx, hne, hkey, Nat.lt_of_not_le hle, Nat.lt_of_not_le hge⟩
        rw [count_take_of_pure h hpure, hlow, hperm.count_eq,
          count_take_of_pure h' fun x hx => hpure x (hperm.mem_iff.mpr hx)]
      · have hr' : r ∉ rows' := fun hmem => hr (hperm.mem_iff.mpr hmem)
        rw [List.count_eq_zero.mpr fun hmem => hr (List.mem_of_mem_take hmem),
          List.count_eq_zero.mpr fun hmem => hr' (List.mem_of_mem_take hmem)]

/-- **Where a tie is split, two executions disagree**: one prefers the row, the other puts it last. -/
theorem exists_not_perm {rows : List R} {n : ℕ} (hsplit : SplitTie key rows n) :
    ∃ o o' : RowOrder key, ¬((o.sort rows).take n).Perm ((o'.sort rows).take n) := by
  obtain ⟨r, hr, r', hr', hne, hkey, hlow, hhigh⟩ := hsplit
  let first : R → ℕ := fun x => if x = r then 0 else 1
  let last : R → ℕ := fun x => if x = r then 1 else 0
  have hcount : ∀ tie : R → ℕ, (∀ x, tie x = tie r → x = r) →
      (((RowOrder.byTie key tie).sort rows).take n).count r = min (rows.count r)
        (n - rows.countP fun x => toLex (key x, tie x) < toLex (key r, tie r)) := by
    intro tie htie
    have hperm := (RowOrder.byTie key tie).perm rows
    rw [← hperm.count_eq, ← hperm.countP_eq]
    refine @count_take_of_pure R _ _ (fun x => toLex (key x, tie x)) _ _
      (List.pairwise_insertionSort _ rows) r n fun x _ hx => htie x ?_
    exact congrArg (fun p => (ofLex p).2) hx
  have hfirst : rows.countP (fun x => toLex (key x, first x) < toLex (key r, first r)) =
      rows.countP (key · < key r) := by
    refine List.countP_congr fun x _ => ?_
    by_cases hx : x = r <;> simp [Prod.Lex.toLex_lt_toLex, first, hx]
  have hlast : rows.countP (key · ≤ key r) =
      rows.countP (fun x => toLex (key x, last x) < toLex (key r, last r)) + rows.count r := by
    refine countP_eq_add (fun x => ?_) (fun x => ?_) rows
    · by_cases hx : x = r
      · simp [hx]
      · simp [Prod.Lex.toLex_lt_toLex, last, hx, le_iff_lt_or_eq]
    · by_cases hx : x = r <;> simp [hx]
  have hbehind : rows.countP (fun x => toLex (key x, last x) < toLex (key r, last r)) =
      rows.countP (key · < key r) + rows.countP fun x => key x = key r ∧ x ≠ r := by
    refine countP_eq_add (fun x => ?_) (fun x => ?_) rows
    · by_cases hx : x = r <;> simp [Prod.Lex.toLex_lt_toLex, last, hx]
    · by_cases hx : key x = key r <;> simp [hx]
  have htied : 0 < rows.countP fun x => key x = key r ∧ x ≠ r :=
    List.countP_pos_iff.mpr ⟨r', hr', by simp [hkey, hne]⟩
  have hpos : 0 < rows.count r := List.count_pos_iff.mpr hr
  refine ⟨.byTie key first, .byTie key last, fun hperm => ?_⟩
  have heq := hperm.count_eq r
  rw [hcount first (by intro x hx; by_contra hxr; simp [first, hxr] at hx),
    hcount last (by intro x hx; by_contra hxr; simp [last, hxr] at hx), hfirst] at heq
  omega

/-! ## Page after page -/

/-- The rows `start` to `start + size` of one execution. -/
def RowOrder.page (o : RowOrder key) (rows : List R) (size start : ℕ) : List R :=
  ((o.sort rows).drop start).take size

omit [DecidableEq R]

/-- What is shown from the page at `start` on. As long as there are rows behind a page, the next one
    is asked for, and then it is a page of `c` rows of `again`; `k` counts the executions. -/
inductive Pages (orders : ℕ → RowOrder key) (again : List R) (c : ℕ) :
    ℕ → List R → ℕ → ℕ → List R → Prop
  | last {k size start : ℕ} {rows : List R} (h : rows.length ≤ start + size) :
      Pages orders again c k rows size start ((orders k).page rows size start)
  | more {k size start : ℕ} {rows shown : List R} (h : start + size < rows.length)
      (rest : Pages orders again c (k + 1) again c (start + size) shown) :
      Pages orders again c k rows size start ((orders k).page rows size start ++ shown)

section Pages

variable {orders : ℕ → RowOrder key} {again rows shown : List R} {c k size start : ℕ}

theorem RowOrder.length_sort (o : RowOrder key) (rows : List R) :
    (o.sort rows).length = rows.length :=
  (o.perm rows).length_eq

/-- `LIMIT 1`: a row whose key is least. -/
theorem RowOrder.head?_sort (o : RowOrder key) {r : R} (h : (o.sort rows).head? = some r) :
    r ∈ rows ∧ ∀ r' ∈ rows, key r ≤ key r' := by
  obtain ⟨rest, hsort⟩ : ∃ rest, o.sort rows = r :: rest := by
    cases hs : o.sort rows with
    | nil =>
      rw [hs] at h
      exact absurd h (by simp)
    | cons a rest =>
      rw [hs] at h
      exact ⟨rest, congrArg (· :: rest) (Option.some.inj h)⟩
  have hsorted := o.sorted rows
  rw [hsort, List.pairwise_cons] at hsorted
  refine ⟨(o.perm rows).mem_iff.mp (hsort ▸ List.mem_cons_self), fun r' hr' => ?_⟩
  cases List.mem_cons.mp (hsort ▸ (o.perm rows).mem_iff.mpr hr') with
  | inl heq => exact heq ▸ le_refl _
  | inr hrest => exact hsorted.1 r' hrest

/-- Where rows with one key have one value, the value does not depend on the order of ties. -/
theorem RowOrder.head?_sort_map {X : Type} (o : RowOrder key) {value : R → X}
    (hvalue : ∀ r ∈ rows, ∀ r' ∈ rows, key r = key r' → value r = value r') {x : X} :
    (o.sort rows).head?.map value = some x ↔
      ∃ r ∈ rows, value r = x ∧ ∀ r' ∈ rows, key r ≤ key r' := by
  rw [Option.map_eq_some_iff]
  constructor
  · intro h
    obtain ⟨r, hr, hx⟩ := h
    obtain ⟨hmem, hleast⟩ := o.head?_sort hr
    exact ⟨r, hmem, hx, hleast⟩
  · intro h
    obtain ⟨r, hr, hx, hleast⟩ := h
    cases hhead : (o.sort rows).head? with
    | none =>
      have hmem := (o.perm rows).mem_iff.mpr hr
      rw [List.head?_eq_none_iff.mp hhead] at hmem
      exact absurd hmem List.not_mem_nil
    | some r' =>
      obtain ⟨hmem, hleast'⟩ := o.head?_sort hhead
      have hkey : key r' = key r := le_antisymm (hleast' r hr) (hleast r' hmem)
      exact ⟨r', rfl, (hvalue r' hmem r hr hkey).trans hx⟩

theorem RowOrder.page_of_ge (o : RowOrder key) (h : rows.length ≤ start + size) :
    o.page rows size start = (o.sort rows).drop start := by
  refine List.take_of_length_le ?_
  rw [List.length_drop, o.length_sort]
  omega

theorem RowOrder.page_append_drop (o : RowOrder key) (rows : List R) (size start : ℕ) :
    o.page rows size start ++ (o.sort rows).drop (start + size) = (o.sort rows).drop start := by
  rw [← List.drop_drop]
  exact List.take_append_drop size _

/-- **The pages come to an end.** -/
theorem exists_pages (hc : 0 < c) (orders : ℕ → RowOrder key) (again rows : List R)
    (k size start : ℕ) : ∃ shown, Pages orders again c k rows size start shown := by
  have hagain : ∀ n k start, again.length - start = n →
      ∃ shown, Pages orders again c k again c start shown := by
    intro n
    induction n using Nat.strong_induction_on with
    | h n ih =>
      intro k start hn
      by_cases h : start + c < again.length
      · obtain ⟨shown, hshown⟩ := ih (again.length - (start + c)) (by omega) (k + 1) (start + c) rfl
        exact ⟨_, .more h hshown⟩
      · exact ⟨_, .last (Nat.le_of_not_lt h)⟩
  by_cases h : start + size < rows.length
  · obtain ⟨shown, hshown⟩ := hagain _ (k + 1) (start + size) rfl
    exact ⟨_, .more h hshown⟩
  · exact ⟨_, .last (Nat.le_of_not_lt h)⟩

theorem Pages.unique (h : Pages orders again c k rows size start shown) {shown' : List R}
    (h' : Pages orders again c k rows size start shown') : shown = shown' := by
  induction h generalizing shown' with
  | last hlast =>
    cases h' with
    | last _ => rfl
    | more hmore _ => omega
  | more hmore _ ih =>
    cases h' with
    | last hlast => omega
    | more _ hrest => rw [ih hrest]

/-- The pages show as many rows as there are. -/
theorem Pages.length (h : Pages orders again c k rows size start shown) (hrows : rows = again) :
    shown.length = again.length - start := by
  induction h with
  | @last k size start rows hlast =>
    subst hrows
    rw [RowOrder.page_of_ge _ hlast, List.length_drop, RowOrder.length_sort]
  | @more k size start rows shown hmore _ ih =>
    subst hrows
    rw [List.length_append, ih rfl, RowOrder.page, List.length_take, List.length_drop,
      RowOrder.length_sort]
    omega

theorem Pages.subset (h : Pages orders again c k rows size start shown) (hrows : rows = again) :
    ∀ r ∈ shown, r ∈ again := by
  have hpage : ∀ (o : RowOrder key) (size start : ℕ), ∀ r ∈ o.page again size start, r ∈ again :=
    fun o _ _ r hr => (o.perm again).mem_iff.mp (List.mem_of_mem_drop (List.mem_of_mem_take hr))
  induction h with
  | last _ =>
    subst hrows
    exact hpage _ _ _
  | more _ _ ih =>
    subst hrows
    intro r hr
    cases List.mem_append.mp hr with
    | inl hfirst => exact hpage _ _ _ r hfirst
    | inr hrest => exact ih rfl r hrest

/-- In one order, the pages are the list. -/
theorem Pages.eq_drop (h : Pages orders again c k rows size start shown) (hrows : rows = again)
    {o : RowOrder key} (ho : ∀ i, orders (k + i) = o) : shown = (o.sort again).drop start := by
  induction h with
  | last hlast =>
    subst hrows
    rw [RowOrder.page_of_ge _ hlast, ← ho 0, Nat.add_zero]
  | more _ _ ih =>
    subst hrows
    have hnext := ih rfl fun i => by rw [Nat.add_assoc]; exact ho (1 + i)
    have hfirst := ho 0
    rw [Nat.add_zero] at hfirst
    rw [hnext, hfirst, RowOrder.page_append_drop]

/-- In one order up to the page that ends at `n`, and in another one from there on. -/
theorem Pages.eq_append (i : ℕ) (h : Pages orders again c k again size start shown)
    {o o' : RowOrder key} (ho : ∀ j ≤ i, orders (k + j) = o) (ho' : ∀ j, orders (k + i + 1 + j) = o')
    (hn : start + size + i * c < again.length) :
    shown = ((o.sort again).drop start).take (size + i * c) ++
      (o'.sort again).drop (start + size + i * c) := by
  induction i generalizing k size start shown with
  | zero =>
    rw [Nat.zero_mul, Nat.add_zero] at hn ⊢
    cases h with
    | last hlast => omega
    | more _ hrest => rw [hrest.eq_drop rfl ho', show orders k = o from ho 0 (Nat.le_refl _)]; rfl
  | succ i ih =>
    cases h with
    | last hlast =>
      have hpos : 0 ≤ (i + 1) * c := Nat.zero_le _
      omega
    | more _ hrest =>
      have hsize : size + (i + 1) * c = size + (c + i * c) := by
        rw [Nat.succ_mul]
        omega
      have hstart : start + size + (i + 1) * c = start + size + c + i * c := by
        rw [Nat.succ_mul]
        omega
      have hnext := ih hrest (fun j hj => by rw [Nat.add_assoc]; exact ho (1 + j) (by omega))
        (fun j => by rw [← ho' j]; congr 1; omega) (hstart ▸ hn)
      have hpage : ((o.sort again).drop start).take (size + (c + i * c)) =
          o.page again size start ++ ((o.sort again).drop (start + size)).take (c + i * c) := by
        rw [List.take_add, List.drop_drop]
        rfl
      rw [hnext, show orders k = o from ho 0 (Nat.zero_le _), hsize, hstart, hpage,
        List.append_assoc]

variable [DecidableEq R]

omit orders k size start in
theorem drop_perm {rows' : List R} {n : ℕ} (h : rows.Pairwise fun a b => key a ≤ key b)
    (h' : rows'.Pairwise fun a b => key a ≤ key b) (hperm : rows.Perm rows')
    (hsplit : ¬SplitTie key rows n) : (rows.drop n).Perm (rows'.drop n) := by
  have hwhole : (rows.take n ++ rows.drop n).Perm (rows'.take n ++ rows'.drop n) := by
    rwa [List.take_append_drop, List.take_append_drop]
  exact (List.perm_append_left_iff _).mp
    (hwhole.trans ((take_perm h h' hperm hsplit).symm.append_right _))

/-- **Where no page ends inside a tie, each row is shown once.** -/
theorem Pages.perm (h : Pages orders again c k rows size start shown) (hrows : rows = again)
    (hstart : ¬SplitTie key again start) (hsplit : ∀ i, ¬SplitTie key again (start + size + i * c))
    (o : RowOrder key) : shown.Perm ((o.sort again).drop start) := by
  have horder : ∀ (o' : RowOrder key) (n : ℕ), ¬SplitTie key again n →
      ((o'.sort again).drop n).Perm ((o.sort again).drop n) := by
    intro o' n hn
    refine drop_perm (o'.sorted again) (o.sorted again) ((o'.perm again).trans (o.perm again).symm) ?_
    exact fun hsplit => hn (hsplit.of_perm (o'.perm again))
  induction h with
  | last hlast =>
    subst hrows
    rw [RowOrder.page_of_ge _ hlast]
    exact horder _ _ hstart
  | @more k size start rows shown _ _ ih =>
    subst hrows
    have hnext := ih rfl (by simpa using hsplit 0) fun i => by
      rw [show start + size + c + i * c = start + size + (i + 1) * c by rw [Nat.succ_mul]; omega]
      exact hsplit (i + 1)
    refine (List.Perm.append_left _ (hnext.trans (horder (orders k) _ ?_).symm)).trans ?_
    · simpa using hsplit 0
    · rw [RowOrder.page_append_drop]
      exact horder _ _ hstart

/-- **What an enumeration shows.** The first page has `size` rows, the following ones, of a query that
    asks for no less, `c`: each row of the first query is shown once, in every execution, just when
    there is one page, or the two queries have the same rows and no page ends inside a tie. -/
theorem pages_perm_iff (hc : 0 < c)
    (hrows : rows.Sublist again ∨ ∀ r ∈ rows, r ∉ again) :
    (∀ orders : ℕ → RowOrder key, ∃ shown, Pages orders again c 0 rows size 0 shown ∧
        shown.Perm rows) ↔
      rows.length ≤ size ∨ rows = again ∧ ∀ i, ¬SplitTie key again (size + i * c) := by
  constructor
  · intro h
    by_cases hone : rows.length ≤ size
    · exact Or.inl hone
    have hlt : 0 + size < rows.length := by omega
    obtain ⟨shown, hshown, hperm⟩ := h fun _ => .byTie key fun _ => 0
    cases hshown with
    | last hlast => omega
    | @more _ _ _ _ shown _ hrest =>
      have hlength := hperm.length_eq
      rw [List.length_append, RowOrder.page, List.length_take, List.drop_zero,
        RowOrder.length_sort, hrest.length rfl] at hlength
      have hsame : rows = again := by
        cases hrows with
        | inl hsub => exact hsub.eq_of_length_le (by omega)
        | inr hapart =>
          have hpos : 0 < shown.length := by
            rw [hrest.length rfl]
            omega
          obtain ⟨r, hr⟩ := List.exists_mem_of_length_pos hpos
          exact absurd (hrest.subset rfl r hr)
            (hapart r (hperm.mem_iff.mp (List.mem_append_right _ hr)))
      subst hsame
      refine Or.inr ⟨rfl, fun i hsplit => ?_⟩
      have hn : 0 + size + i * c < rows.length := by
        obtain ⟨r, -, r', -, -, -, -, hhigh⟩ := hsplit
        rw [Nat.zero_add]
        exact Nat.lt_of_lt_of_le hhigh List.countP_le_length
      obtain ⟨o, o', hnot⟩ := exists_not_perm hsplit
      obtain ⟨shown, hshown, hperm⟩ := h fun k => if k ≤ i then o else o'
      have heq := hshown.eq_append i (fun j hj => if_pos (by omega)) (fun j => if_neg (by omega)) hn
      rw [List.drop_zero, Nat.zero_add] at heq
      refine hnot ((List.perm_append_right_iff ((o'.sort rows).drop (size + i * c))).mp ?_)
      rw [List.take_append_drop, ← heq]
      exact hperm.trans (o'.perm rows).symm
  · rintro (hone | ⟨rfl, hsplit⟩) orders
    · refine ⟨_, .last (by omega), ?_⟩
      rw [RowOrder.page_of_ge _ (by omega)]
      exact (orders 0).perm rows
    · obtain ⟨shown, hshown⟩ := exists_pages hc orders rows rows 0 size 0
      refine ⟨shown, hshown, (hshown.perm rfl ?_ (by simpa using hsplit) (orders 0)).trans ?_⟩
      · rintro ⟨r, -, r', -, -, -, hlow, -⟩
        exact absurd hlow (Nat.not_lt_zero _)
      · exact (orders 0).perm rows

end Pages

end Paging
end OdooSemantic
