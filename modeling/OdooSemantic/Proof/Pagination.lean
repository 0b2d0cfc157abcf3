import OdooSemantic.Mcp.Listings
import OdooSemantic.Proof.Refs

/-!
# Reading a listing to its end

A page that has rows behind it prints the call for the next page. What it prints is the entity, the
version and the cursor: no filter, and no limit. So the second page is a page of everything there is,
and what the reader has seen in the end are the rows of the filter only where the filter lets through
everything, or where one page holds them all.

The order of a listing is the order of its query, and that is silent on ties: two patches of one
component under one name, two fields of one name in modules that are not there. Where such rows
stand on both sides of a page's end, one of them may be shown twice and the other one never.

Apart from that, each row is shown once (`pagination_iff`).
-/

namespace OdooSemantic

open KeyedStore Paging

/-! ## The statements -/

namespace InspectCall

/-- What is shown by a call, and by the calls that its pages print, up to the page that prints
    none. -/
inductive Enumerates (g : Graph) (execs : ℕ → ListingExec) :
    ℕ → InspectCall → List ListedRow → Prop
  | last {k : ℕ} {call : InspectCall} {l : Listing} {page : ListingPage} {minter : RefMinter String}
      (hlisting : call.listing g call.odooVersion = some l)
      (hpage : l.page (execs k) call.limit call.startIndex = .ok (page, minter))
      (hlast : page.next = none) : Enumerates g execs k call page.rows
  | more {k : ℕ} {call : InspectCall} {l : Listing} {page : ListingPage} {minter : RefMinter String}
      {printed : PrintedCall} {shown : List ListedRow}
      (hlisting : call.listing g call.odooVersion = some l)
      (hpage : l.page (execs k) call.limit call.startIndex = .ok (page, minter))
      (hnext : page.next = some printed) (rest : Enumerates g execs (k + 1) printed.call shown) :
      Enumerates g execs k call (page.rows ++ shown)

end InspectCall

namespace Listing

/-- The filtered result. -/
def result (l : Listing) : List ListedRow :=
  match l.refusal with
  | some _ => []
  | none => l.rows

/-- The rows of the call that a page prints. -/
def again (g : Graph) (v : String) (l : Listing) : List ListedRow :=
  (((l.printed 0).call.listing g v).map (·.rows)).getD []

end Listing

/-- **Reading on, as printed, shows each row of the result once, and no other row**, whatever the
    database makes of ties. -/
def InspectCall.EnumeratesOnce (g : Graph) (call : InspectCall) (l : Listing) : Prop :=
  ∀ execs : ℕ → ListingExec, ∃ shown, call.Enumerates g execs 0 shown ∧ shown.Perm l.result

/-- One page holds the rows; or the printed call asks for the same rows, and no page ends inside a
    tie. -/
def InspectCall.Enumerable (g : Graph) (call : InspectCall) (l : Listing) : Prop :=
  let size := (l.effectiveLimit call.limit).toNat
  l.refusal ≠ none ∨ 0 ≤ call.limit ∧ (l.rows.length ≤ size ∨
    l.rows = l.again g call.odooVersion ∧ ∀ i, ¬SplitTie ListedRow.key l.rows (size + i * l.cap))

/-! ## What a page shows -/

section Groups

theorem flatMap_addToGroup (key : String × String) (r : ListedRow × String) (gs : RowGroups) :
    ((addToGroup key r gs).flatMap (·.2)).Perm (gs.flatMap (·.2) ++ [r]) := by
  induction gs with
  | nil => exact .refl _
  | cons g gs ih =>
    rw [addToGroup]
    split
    · simp only [List.flatMap_cons, List.append_assoc]
      exact List.perm_append_comm.append_left _
    · simp only [List.flatMap_cons, List.append_assoc]
      exact ih.append_left _

/-- Grouping loses no row. -/
theorem flatMap_groupRows (rows : List (ListedRow × String)) :
    ((groupRows rows).flatMap (·.2)).Perm rows := by
  have hfold : ∀ gs : RowGroups,
      ((rows.foldl (fun gs r => addToGroup r.1.groupKey r gs) gs).flatMap (·.2)).Perm
        (gs.flatMap (·.2) ++ rows) := by
    induction rows with
    | nil => simp
    | cons r rows ih =>
      intro gs
      refine (ih _).trans (((flatMap_addToGroup _ r gs).append_right rows).trans ?_)
      rw [List.append_assoc]
      rfl
  exact hfold []

/-- **No row of a page is cut off**: there are no more than the cap lets through. -/
theorem rowsShown_perm (l : Listing) {rows : List (ListedRow × String)} (h : rows.length ≤ l.cap) :
    (l.rowsShown rows).Perm (rows.map (·.1)) := by
  unfold Listing.rowsShown
  split
  · have hgroup : ∀ g ∈ groupRows rows, (g.2.map (·.1)).take l.cap = g.2.map (·.1) := by
      intro g hg
      refine List.take_of_length_le ?_
      rw [List.length_map]
      have hsub : g.2.Sublist ((groupRows rows).flatMap (·.2)) := by
        rw [List.flatMap_def]
        exact List.sublist_flatten_of_mem (List.mem_map_of_mem hg)
      exact (hsub.length_le.trans (flatMap_groupRows rows).length_eq.le).trans h
    rw [List.flatMap_congr hgroup, ← List.map_flatMap]
    exact (flatMap_groupRows rows).map _
  · rw [List.take_of_length_le (by simpa using h)]

end Groups

section Mint

variable {V : Type} {py : PyRuntime V} {ttl now : ℚ}

/-- With a kind that has a letter, every item gets its ref. -/
theorem mintItems_ok {kind pre : String} (hkind : kind ≠ "auto")
    (hpre : prefixByKind.lookup kind = some pre) (idx : Nat) (items : List (RefItem V))
    (s : TenantStore V) :
    ∃ refs, (TenantStore.mintItems py ttl now kind idx items s).1 = .ok refs := by
  induction items generalizing idx s with
  | nil => exact ⟨[], rfl⟩
  | cons item items ih =>
    rw [TenantStore.mintItems]
    split
    · obtain ⟨refs, hrefs⟩ := ih (idx + 1) s
      exact ⟨"exhausted" :: refs, congrArg (Except.map ("exhausted" :: ·)) hrefs⟩
    · have hfront : prefixFor kind item = .ok pre := by
        unfold prefixFor
        rw [if_neg hkind]
        simp [hpre]
      rw [hfront]
      obtain ⟨refs, hrefs⟩ := ih (idx + 1) (s.mintItem py ttl now pre item).2
      exact ⟨_ :: refs, congrArg (Except.map ((s.mintItem py ttl now pre item).1 :: ·)) hrefs⟩

theorem mint_ok {kind pre : String} (hkind : kind ≠ "auto")
    (hpre : prefixByKind.lookup kind = some pre) (m : RefMinter V) (items : List (RefItem V))
    (apiKeyId : String) : ∃ refs, (m.mint py ttl now items apiKeyId kind).1 = .ok refs ∧
      refs.length = items.length := by
  obtain ⟨refs, hrefs⟩ := @mintItems_ok V py ttl now kind pre hkind hpre 0 items
    (((m.stores.lookup apiKeyId).getD {}).evictExpired now)
  exact ⟨refs, hrefs, TenantStore.length_mintItems hrefs⟩

end Mint

/-! ## What all listings have in common -/

/-- What the proof needs to know of a listing that asks the database. -/
structure Listing.Regular (g : Graph) (v : String) (l : Listing) : Prop where
  total : l.total = l.rows.length
  cap : 0 < l.cap ∧ l.cap ≤ 200
  kind : l.refKind ≠ "auto" ∧ ∃ pre, prefixByKind.lookup l.refKind = some pre
  rows : l.rows.Sublist (l.again g v) ∨ ∀ r ∈ l.rows, r ∉ l.again g v
  printed : ∀ n, (l.printed n).call.odooVersion = v ∧ (l.printed n).call.limit = 200 ∧
    (l.printed n).call.startIndex = n ∧ (l.printed n).call.method ≠ "qweb"
  /-- The printed call goes on with all rows, and prints calls of the same kind. -/
  next : ∀ n, ∃ l', (l.printed n).call.listing g v = some l' ∧ l'.refusal = none ∧
    l'.rows = l.again g v ∧ l'.cap = l.cap ∧ l'.printed = l.printed

section Page

variable {g : Graph} {v : String} {l : Listing}

/-- **A page**: some order of its rows, and a call just when there are rows behind it. -/
theorem Listing.Regular.page (h : l.Regular g v) (hrefusal : l.refusal = none) (e : ListingExec)
    {limit : Int} (hlimit : 0 ≤ limit) (start : ℕ) :
    ∃ page minter, l.page e limit start = .ok (page, minter) ∧
      page.rows.Perm (e.order.page l.rows (l.effectiveLimit limit).toNat start) ∧
      page.next = if start + (l.effectiveLimit limit).toNat < l.rows.length then
        some (l.printed (start + (l.effectiveLimit limit).toNat)) else none := by
  have hsize : 0 ≤ l.effectiveLimit limit := by
    unfold Listing.effectiveLimit
    omega
  have hcap : (l.effectiveLimit limit).toNat ≤ l.cap := by
    unfold Listing.effectiveLimit
    omega
  have hlength : (e.order.page l.rows (l.effectiveLimit limit).toNat start).length =
      min (l.effectiveLimit limit).toNat (l.rows.length - start) := by
    rw [RowOrder.page, List.length_take, List.length_drop, RowOrder.length_sort]
  unfold Listing.page
  rw [hrefusal]
  dsimp only
  rw [if_neg (by omega), Int.toNat_natCast, h.total]
  by_cases hempty : l.rows.length = 0
  · have hrows : l.rows = [] := List.eq_nil_of_length_eq_zero hempty
    refine ⟨_, _, if_pos hempty, ?_, ?_⟩
    · have hpage : e.order.page l.rows (l.effectiveLimit limit).toNat start = [] := by
        refine List.eq_nil_of_length_eq_zero ?_
        rw [hlength]
        omega
      rw [hpage]
    · rw [if_neg (by omega)]
  · rw [if_neg hempty]
    obtain ⟨hkind, pre, hpre⟩ := h.kind
    obtain ⟨refs, hrefs, hlen⟩ := mint_ok hkind hpre e.minter
      (l.refItems e (e.order.page l.rows (l.effectiveLimit limit).toNat start)) e.apiKeyId
    cases hmint : e.minter.mint e.py e.ttl e.now
        (l.refItems e (e.order.page l.rows (l.effectiveLimit limit).toNat start)) e.apiKeyId
        l.refKind with
    | mk answer minter =>
      rw [hmint] at hrefs
      obtain rfl : answer = .ok refs := hrefs
      refine ⟨_, _, rfl, ?_, ?_⟩
      · have hzip : ((e.order.page l.rows (l.effectiveLimit limit).toNat start).zip refs).map
            (·.1) = e.order.page l.rows (l.effectiveLimit limit).toNat start := by
          refine List.map_fst_zip ?_
          rw [hlen, Listing.refItems, List.length_mapIdx]
        have hfits : ((e.order.page l.rows (l.effectiveLimit limit).toNat start).zip refs).length ≤
            l.cap := by
          rw [List.length_zip, hlength]
          omega
        have hshown := rowsShown_perm l hfits
        rwa [hzip] at hshown
      · dsimp only
        rw [hlength]
        by_cases hmore : start + (l.effectiveLimit limit).toNat < l.rows.length
        · rw [if_pos hmore, if_pos (by omega)]
          congr 2
          omega
        · rw [if_neg hmore, if_neg (by omega)]

end Page

/-! ## Each listing is one of them -/

section Regular

variable (g : Graph) (v : String)

/-- What a longer condition lets through, a shorter one does. -/
theorem filter_sublist_filter {A : Type} {p q : A → Bool} (h : ∀ a, p a = true → q a = true)
    (xs : List A) : (xs.filter p).Sublist (xs.filter q) :=
  List.monotone_filter_right xs h

theorem regular_fields (model : String) (module kind profileName : Option String) (start : Int) :
    (g.listFields model v module kind profileName start).Regular g v where
  total := rfl
  cap := (by decide : 0 < listPreviewFieldsMax ∧ listPreviewFieldsMax ≤ 200)
  kind := ⟨(by decide : "field" ≠ "auto"), "f", rfl⟩
  rows := by
    refine Or.inl (List.Sublist.map _ (filter_sublist_filter (fun f hf => ?_) _))
    simp only [Bool.and_eq_true] at hf ⊢
    obtain ⟨⟨⟨⟨⟨hmodel, hv⟩, -⟩, -⟩, -⟩, hresolved⟩ := hf
    exact ⟨⟨⟨⟨⟨hmodel, hv⟩, rfl⟩, rfl⟩, rfl⟩, hresolved⟩
  printed n := ⟨rfl, rfl, rfl, (by decide : "fields" ≠ "qweb")⟩
  next n := ⟨_, rfl, rfl, rfl, rfl, rfl⟩

theorem regular_methods (model : String) (profileName : Option String) :
    (g.listMethods model v none profileName).Regular g v where
  total := rfl
  cap := (by decide : 0 < listPreviewMaxItems ∧ listPreviewMaxItems ≤ 200)
  kind := ⟨(by decide : "method" ≠ "auto"), "m", rfl⟩
  rows := by
    refine Or.inl (List.Sublist.map _ (filter_sublist_filter (fun m hm => ?_) _))
    simp only [Bool.and_eq_true] at hm ⊢
    obtain ⟨⟨⟨⟨hmodel, hv⟩, -⟩, -⟩, hresolved⟩ := hm
    exact ⟨⟨⟨⟨hmodel, hv⟩, rfl⟩, rfl⟩, hresolved⟩
  printed n := ⟨rfl, rfl, rfl, (by decide : "methods" ≠ "qweb")⟩
  next n := ⟨_, rfl, rfl, rfl, rfl, rfl⟩

theorem viewsOf_sublist (model module : Option String) (viewType profileName : Option String) :
    (g.viewsOf model module v viewType profileName).Sublist (g.viewsOf model module v none none) := by
  refine filter_sublist_filter (fun n hn => ?_) _
  simp only [Bool.and_eq_true] at hn ⊢
  obtain ⟨⟨⟨⟨⟨hmodel, hmodule⟩, hv⟩, -⟩, -⟩, hresolved⟩ := hn
  exact ⟨⟨⟨⟨⟨hmodel, hmodule⟩, hv⟩, rfl⟩, rfl⟩, hresolved⟩

theorem regular_views (model : String) (viewType profileName : Option String) :
    (g.listViews model v viewType profileName).Regular g v where
  total := rfl
  cap := (by decide : 0 < listPreviewMaxItems ∧ listPreviewMaxItems ≤ 200)
  kind := ⟨(by decide : "view" ≠ "auto"), "v", rfl⟩
  rows := Or.inl (List.Sublist.map _ (viewsOf_sublist g v (some model) none viewType profileName))
  printed n := ⟨rfl, rfl, rfl, (by decide : "views" ≠ "qweb")⟩
  next n := ⟨_, rfl, rfl, rfl, rfl, rfl⟩

theorem regular_viewsByModule (module : String) (viewType profileName : Option String) :
    (g.listViewsByModule module v viewType profileName).Regular g v where
  total := rfl
  cap := (by decide : 0 < listPreviewMaxItems ∧ listPreviewMaxItems ≤ 200)
  kind := ⟨(by decide : "view" ≠ "auto"), "v", rfl⟩
  rows := Or.inl (List.Sublist.map _ (viewsOf_sublist g v none (some module) viewType profileName))
  printed n := ⟨rfl, rfl, rfl, (by decide : "views" ≠ "qweb")⟩
  next n := ⟨_, rfl, rfl, rfl, rfl, rfl⟩

theorem regular_owl {module : String} {boundModel profileName : Option String}
    (hrefusal : (g.listOwlComponents module v boundModel profileName).refusal = none) :
    (g.listOwlComponents module v boundModel profileName).Regular g v where
  total := rfl
  cap := (by decide : 0 < listPreviewMaxItems ∧ listPreviewMaxItems ≤ 200)
  kind := ⟨(by decide : "field" ≠ "auto"), "f", rfl⟩
  rows := by
    refine Or.inl (List.Sublist.map _ (filter_sublist_filter (fun c hc => ?_) _))
    simp only [Bool.and_eq_true] at hc ⊢
    obtain ⟨⟨⟨⟨hmodule, hv⟩, -⟩, -⟩, hresolved⟩ := hc
    exact ⟨⟨⟨⟨hmodule, hv⟩, rfl⟩, rfl⟩, hresolved⟩
  printed n := ⟨rfl, rfl, rfl, (by decide : "owl" ≠ "qweb")⟩
  next n := ⟨_, rfl, hrefusal, rfl, rfl, rfl⟩

theorem textOr_of_ne {s default : String} (h : s ≠ "") : textOr s default = s := by
  rw [textOr, Option.filter_some, if_pos (by simpa using h), Option.getD_some]

theorem module_of_jsPatchesOf {module : String} {target era profileName : Option String}
    {j : JSPatchKey × JSPatchProps} (h : j ∈ g.jsPatchesOf v target module era profileName) :
    j.1.module = module := by
  have hj := (List.mem_filter.mp h).2
  simp only [Bool.and_eq_true] at hj
  obtain ⟨⟨⟨⟨⟨-, -⟩, -⟩, hmodule⟩, -⟩, -⟩ := hj
  exact Option.some.inj (of_decide_eq_true hmodule)

/-- Without a name, the printed call asks for a module of another name. -/
theorem regular_js (module : String) (target era profileName : Option String) :
    (g.listJsPatches v module target era profileName).Regular g v where
  total := rfl
  cap := (by decide : 0 < listPreviewPatchesMax ∧ listPreviewPatchesMax ≤ 200)
  kind := ⟨(by decide : "module" ≠ "auto"), "x", rfl⟩
  rows := by
    by_cases hmodule : module = ""
    · subst hmodule
      refine Or.inr fun r hr hagain => ?_
      obtain ⟨j, hj, rfl⟩ := List.mem_map.mp hr
      obtain ⟨j', hj', heq⟩ := List.mem_map.mp hagain
      have hsame : j'.1.module = j.1.module := congrArg ListedRow.module heq
      rw [module_of_jsPatchesOf g v hj, module_of_jsPatchesOf g v hj'] at hsame
      exact absurd (show "..." = "" from hsame) (by decide)
    · refine Or.inl (List.Sublist.map _ ?_)
      show (g.jsPatchesOf v target module (era.bind Graph.eraFilter) profileName).Sublist
        (g.jsPatchesOf v none (textOr module "...") none none)
      rw [textOr_of_ne hmodule]
      refine filter_sublist_filter (fun j hj => ?_) _
      simp only [Bool.and_eq_true] at hj ⊢
      obtain ⟨⟨⟨⟨⟨hv, -⟩, -⟩, hmodule⟩, -⟩, hresolved⟩ := hj
      exact ⟨⟨⟨⟨⟨hv, rfl⟩, rfl⟩, hmodule⟩, rfl⟩, hresolved⟩
  printed n := ⟨rfl, rfl, rfl, (by decide : "js" ≠ "qweb")⟩
  next n := by
    refine ⟨_, rfl, rfl, rfl, rfl, ?_⟩
    show PrintedCall.moduleInspect (textOr (textOr module "...") "...") "js" v =
      .moduleInspect (textOr module "...") "js" v
    by_cases hmodule : module = ""
    · subst hmodule
      rfl
    · rw [textOr_of_ne hmodule, textOr_of_ne hmodule]

variable {g}

/-- All listings but that of the templates. -/
theorem regular_of_listing {call : InspectCall} {l : Listing} {v : String}
    (hlisting : call.listing g v = some l) (hqweb : call.method ≠ "qweb")
    (hrefusal : l.refusal = none) : l.Regular g v := by
  cases call with
  | model args =>
    simp only [InspectCall.listing, ModelInspect.listing] at hlisting
    split at hlisting
    · exact Option.some.inj hlisting ▸ regular_fields g v _ _ _ _ _
    · split at hlisting
      · exact Option.some.inj hlisting ▸ regular_methods g v _ _
      · split at hlisting
        · exact Option.some.inj hlisting ▸ regular_views g v _ _ _
        · exact absurd hlisting (by simp)
  | module args =>
    simp only [InspectCall.listing, ModuleInspect.listing] at hlisting
    split at hlisting
    · exact Option.some.inj hlisting ▸ regular_viewsByModule g v _ _ _
    · split at hlisting
      · obtain rfl := Option.some.inj hlisting
        exact regular_owl g v hrefusal
      · split at hlisting
        · rename_i hmethod
          exact absurd hmethod hqweb
        · split at hlisting
          · exact Option.some.inj hlisting ▸ regular_js g v _ _ _ _
          · exact absurd hlisting (by simp)

end Regular

/-! ## Reading on -/

section Enumerates

variable {g : Graph} {execs : ℕ → ListingExec} {k : ℕ} {v : String} {call : InspectCall}
  {l : Listing} {start : ℕ} {shown : List ListedRow}

/-- The call asks the database for the rows of the listing, from `start` on. -/
structure InspectCall.Asks (g : Graph) (v : String) (call : InspectCall) (l : Listing) (start : ℕ) :
    Prop where
  version : call.odooVersion = v
  listing : call.listing g v = some l
  refusal : l.refusal = none
  qweb : call.method ≠ "qweb"
  start : call.startIndex = start
  limit : 0 ≤ call.limit

theorem InspectCall.Asks.regular (h : call.Asks g v l start) : l.Regular g v :=
  regular_of_listing h.listing h.qweb h.refusal

/-- The printed call asks for a full page of all rows, and prints in its turn the calls that this one
    prints. -/
theorem InspectCall.Asks.again (h : call.Asks g v l start) (n : ℕ) :
    ∃ l', (l.printed n).call.Asks g v l' n ∧ l'.rows = l.again g v ∧ l'.again g v = l.again g v ∧
      l'.cap = l.cap ∧ (l'.effectiveLimit (l.printed n).call.limit).toNat = l.cap := by
  obtain ⟨l', hlisting, hrefusal, hrows, hcap, hprinted⟩ := h.regular.next n
  obtain ⟨hversion, hlimit, hstart, hqweb⟩ := h.regular.printed n
  refine ⟨l', ⟨hversion, hlisting, hrefusal, hqweb, hstart, by omega⟩, hrows, ?_, hcap, ?_⟩
  · unfold Listing.again
    rw [hprinted]
  · have hsmall := h.regular.cap
    rw [hlimit, Listing.effectiveLimit, hcap]
    omega

/-- A page of the call, in one execution. -/
theorem InspectCall.Asks.page (h : call.Asks g v l start) (e : ListingExec) :
    ∃ page minter, l.page e call.limit call.startIndex = .ok (page, minter) ∧
      page.rows.Perm (e.order.page l.rows (l.effectiveLimit call.limit).toNat start) ∧
      page.next = if start + (l.effectiveLimit call.limit).toNat < l.rows.length then
        some (l.printed (start + (l.effectiveLimit call.limit).toNat)) else none := by
  rw [h.start]
  exact h.regular.page h.refusal e h.limit start

/-- **What the calls show is what the pages show.** -/
theorem pages_of_enumerates (h : call.Enumerates g execs k shown) (hasks : call.Asks g v l start) :
    ∃ shown', Pages (fun k => (execs k).order) (l.again g v) l.cap k l.rows
      (l.effectiveLimit call.limit).toNat start shown' ∧ shown.Perm shown' := by
  induction h generalizing l start with
  | @last k call l₀ page minter hlisting hpage hlast =>
    rw [hasks.version, hasks.listing] at hlisting
    obtain rfl := Option.some.inj hlisting
    obtain ⟨page', minter', hpage', hrows, hnext⟩ := hasks.page (execs k)
    obtain ⟨rfl, -⟩ := Prod.mk.inj (Except.ok.inj (hpage.symm.trans hpage'))
    rw [hlast] at hnext
    split at hnext
    · exact absurd hnext (by simp)
    · rename_i hend
      exact ⟨_, .last (Nat.le_of_not_lt hend), hrows⟩
  | @more k call l₀ page minter printed shown hlisting hpage hprinted _ ih =>
    rw [hasks.version, hasks.listing] at hlisting
    obtain rfl := Option.some.inj hlisting
    obtain ⟨page', minter', hpage', hrows, hnext⟩ := hasks.page (execs k)
    obtain ⟨rfl, -⟩ := Prod.mk.inj (Except.ok.inj (hpage.symm.trans hpage'))
    rw [hprinted] at hnext
    split at hnext
    · rename_i hmore
      obtain rfl := Option.some.inj hnext
      obtain ⟨l', hasks', hrows', hagain, hcap, hsize⟩ := hasks.again
        (start + (l.effectiveLimit call.limit).toNat)
      obtain ⟨shown', hpages, hperm⟩ := ih hasks'
      rw [hrows', hagain, hcap, hsize] at hpages
      exact ⟨_, .more hmore hpages, hrows.append hperm⟩
    · exact absurd hnext (by simp)

theorem enumerates_of_pages {again rows shown' : List ListedRow} {c size : ℕ}
    (h : Pages (fun k => (execs k).order) again c k rows size start shown')
    (hasks : call.Asks g v l start) (hagain : l.again g v = again) (hcap : l.cap = c)
    (hrows : l.rows = rows) (hsize : (l.effectiveLimit call.limit).toNat = size) :
    ∃ shown, call.Enumerates g execs k shown ∧ shown.Perm shown' := by
  induction h generalizing call l with
  | @last k size start rows hlast =>
    subst hrows hsize
    obtain ⟨page, minter, hpage, hperm, hnext⟩ := hasks.page (execs k)
    rw [if_neg (Nat.not_lt_of_le hlast)] at hnext
    exact ⟨page.rows, .last (hasks.version.symm ▸ hasks.listing) hpage hnext, hperm⟩
  | @more k size start rows shown hmore _ ih =>
    subst hrows hsize
    obtain ⟨page, minter, hpage, hperm, hnext⟩ := hasks.page (execs k)
    rw [if_pos hmore] at hnext
    obtain ⟨l', hasks', hrows', hagain', hcap', hsize'⟩ := hasks.again
      (start + (l.effectiveLimit call.limit).toNat)
    obtain ⟨shown', hrest, hperm'⟩ := ih hasks' (hagain'.trans hagain) (hcap'.trans hcap)
      (hrows'.trans hagain) (hsize'.trans hcap)
    exact ⟨page.rows ++ shown', .more (hasks.version.symm ▸ hasks.listing) hpage hnext hrest,
      hperm.append hperm'⟩

/-- Whatever the executions are, they sort in some order; and whatever the orders are, there are
    executions that sort so. -/
theorem InspectCall.Asks.enumeratesOnce_iff (h : call.Asks g v l 0) :
    call.EnumeratesOnce g l ↔ ∀ orders : ℕ → RowOrder ListedRow.key, ∃ shown,
      Pages orders (l.again g v) l.cap 0 l.rows (l.effectiveLimit call.limit).toNat 0 shown ∧
        shown.Perm l.rows := by
  have hresult : l.result = l.rows := by
    unfold Listing.result
    rw [h.refusal]
  unfold InspectCall.EnumeratesOnce
  rw [hresult]
  constructor
  · intro honce orders
    obtain ⟨shown, hshown, hperm⟩ := honce fun k =>
      { order := orders k, py := ⟨some, fun _ => 0⟩, oid := fun _ => 0, ttl := 0, now := 0,
        minter := {}, apiKeyId := "" }
    obtain ⟨shown', hpages, hperm'⟩ := pages_of_enumerates hshown h
    exact ⟨shown', hpages, hperm'.symm.trans hperm⟩
  · intro honce execs
    obtain ⟨shown', hpages, hperm'⟩ := honce fun k => (execs k).order
    obtain ⟨shown, hshown, hperm⟩ := enumerates_of_pages hpages h rfl rfl rfl rfl
    exact ⟨shown, hshown, hperm.trans hperm'⟩

/-- **When the pages of a listing show each row of its result once**, whatever the database makes of
    ties: when the call is turned down before the database is asked, or, with a limit that is not
    negative, one page holds the rows, or the printed call asks for the same rows and no page ends
    inside a tie. -/
theorem pagination_iff (hlisting : call.listing g call.odooVersion = some l)
    (hqweb : call.method ≠ "qweb") (hstart : call.startIndex = 0) :
    call.EnumeratesOnce g l ↔ call.Enumerable g l := by
  unfold InspectCall.Enumerable
  cases hrefusal : l.refusal with
  | some text =>
    refine ⟨fun _ => Or.inl (by simp), fun _ execs => ⟨[], ?_, ?_⟩⟩
    · have hpage : l.page (execs 0) call.limit call.startIndex =
          .ok ({ text }, (execs 0).minter) := by
        unfold Listing.page
        rw [hrefusal]
      exact .last hlisting hpage rfl
    · unfold Listing.result
      rw [hrefusal]
  | none =>
    by_cases hlimit : 0 ≤ call.limit
    · have hasks : call.Asks g call.odooVersion l 0 :=
        ⟨rfl, hlisting, hrefusal, hqweb, hstart, hlimit⟩
      rw [hasks.enumeratesOnce_iff, pages_perm_iff hasks.regular.cap.1 hasks.regular.rows]
      constructor
      · rintro (hone | ⟨hsame, hsplit⟩)
        · exact Or.inr ⟨hlimit, Or.inl hone⟩
        · exact Or.inr ⟨hlimit, Or.inr ⟨hsame, hsame ▸ hsplit⟩⟩
      · rintro (hno | ⟨-, hone | ⟨hsame, hsplit⟩⟩)
        · exact absurd rfl hno
        · exact Or.inl hone
        · exact Or.inr ⟨hsame, by rwa [← hsame]⟩
    · -- the database turns a negative limit down
      constructor
      · intro honce
        obtain ⟨shown, hshown, -⟩ := honce fun _ =>
          { order := .byTie _ fun _ => 0, py := ⟨some, fun _ => 0⟩, oid := fun _ => 0, ttl := 0,
            now := 0, minter := {}, apiKeyId := "" }
        have hfails : ∀ e, l.page e call.limit call.startIndex = .error .cypher := by
          intro e
          unfold Listing.page
          rw [hrefusal]
          refine if_pos (Or.inl ?_)
          unfold Listing.effectiveLimit
          omega
        cases hshown with
        | last hl hpage _ =>
          rw [hlisting] at hl
          obtain rfl := Option.some.inj hl
          exact absurd (hpage.symm.trans (hfails _)) (by simp)
        | more hl hpage _ _ =>
          rw [hlisting] at hl
          obtain rfl := Option.some.inj hl
          exact absurd (hpage.symm.trans (hfails _)) (by simp)
      · rintro (hno | ⟨hpos, -⟩)
        · exact absurd rfl hno
        · exact absurd hpos hlimit

end Enumerates

namespace ThreeFields

def field (name ttype : String) : MemberKey × FieldProps :=
  (⟨name, "sale.order", "sale", "17.0"⟩,
    { ttype, related := none, compute := none, stored := true, required := false,
      comodelName := none, profile := none })

/-- A model with two fields of one type, and one of another. -/
def graph : Graph where
  modules := AList.singleton ⟨"sale", "17.0"⟩ { edition := some "community" }
  fields := [field "partner_id" "many2one", field "name" "char", field "user_id" "many2one"].foldl
    (fun s f => s.insert f.1 f.2) ∅

/-- The fields of the model, one a page. -/
def call (kind : Option String) : InspectCall :=
  .model { model := "sale.order", method := "fields", odooVersion := "17.0", kind, limit := 1 }

/-- Without a filter, the pages show the three fields. -/
theorem pagination_all : (call none).EnumeratesOnce graph
    (graph.listFields "sale.order" "17.0" none none none 0) := by
  refine (pagination_iff rfl (by decide) rfl).mpr (Or.inr ⟨by decide, Or.inr ⟨rfl, fun i => ?_⟩⟩)
  rintro ⟨r, hr, r', hr', hne, hkey, -⟩
  have hname : r'.name = r.name := congrArg (fun key => (ofLex (ofLex (ofLex key).2).2).1) hkey
  have hnames : ∀ r ∈ (graph.listFields "sale.order" "17.0" none none none 0).rows,
      ∀ r' ∈ (graph.listFields "sale.order" "17.0" none none none 0).rows,
        r'.name = r.name → r' = r := by decide
  exact hne (hnames r hr r' hr' hname)

/-- **With a filter, the second page begins with the field of the first one.** -/
theorem pagination_fails : ¬(call (some "many2one")).EnumeratesOnce graph
    (graph.listFields "sale.order" "17.0" none (some "many2one") none 0) := by
  intro h
  have hasks : (call (some "many2one")).Asks graph "17.0"
      (graph.listFields "sale.order" "17.0" none (some "many2one") none 0) 0 :=
    ⟨rfl, rfl, rfl, by decide, rfl, by decide⟩
  rw [hasks.enumeratesOnce_iff, pages_perm_iff hasks.regular.cap.1 hasks.regular.rows] at h
  cases h with
  | inl hone => exact absurd hone (by decide)
  | inr hsame => exact absurd (congrArg List.length hsame.1) (by decide)

end ThreeFields

end OdooSemantic
