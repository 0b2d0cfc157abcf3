import Mathlib.Data.List.Infix

/-!
# POSIX paths, as text and as component lists

The pure part of Python's `PurePosixPath`, on the raw string: `parts` drops empty and `.`
components, `name` is the last component that is left. Beside it `afterLastSlash`, what the
greedy pattern `^.*/` leaves when it is deleted from the text. The two answers to "what is
this directory called" are the same only for a text whose last segment is a real component
(`name_eq_afterLastSlash`): a trailing slash or a trailing `/.` separates them.

The second half is the upward walk: from a directory, the nearest ancestor-or-self that
satisfies a test, the root excluded.
-/

namespace OdooSemantic
namespace PosixPath

/-- The text between slashes, empty segments included. -/
def segments (s : String) : List String := (s.toList.splitOn '/').map String.ofList

/-- `PurePosixPath(s).parts`, without the root. -/
def parts (s : String) : List String := (segments s).filter fun c => c ≠ "" ∧ c ≠ "."

/-- `PurePosixPath(s).root`: two leading slashes are a root of their own, three are one. -/
def root (s : String) : String :=
  match s.toList with
  | '/' :: '/' :: '/' :: _ => "/"
  | '/' :: '/' :: _ => "//"
  | '/' :: _ => "/"
  | _ => ""

/-- `str` of the path with this root and these components. -/
def render (root : String) (comps : List String) : String :=
  if root = "" ∧ comps = [] then "." else root ++ String.intercalate "/" comps

/-- `str(PurePosixPath(base) / comps…)`, for relative components. -/
def under (base : String) (comps : List String) : String := render (root base) (parts base ++ comps)

/-- `PurePosixPath(s).name`. -/
def name (s : String) : String := (parts s).getLast?.getD ""

/-- `PurePosixPath(s).stem`: the name without its suffix, if it has one. -/
def stem (s : String) : String :=
  let cs := (name s).toList
  let suffix := (cs.reverse.takeWhile (· ≠ '.')).reverse
  let front := cs.take (cs.length - suffix.length - 1)
  if suffix.length = cs.length ∨ suffix = [] ∨ front = [] then name s else String.ofList front

/-- `regexp_replace(s, '^.*/', '')`: the text after the last slash. -/
def afterLastSlash (s : String) : String := (segments s).getLast?.getD ""

theorem name_eq_afterLastSlash {s : String} (h : afterLastSlash s ≠ "")
    (hdot : afterLastSlash s ≠ ".") : name s = afterLastSlash s := by
  unfold name parts
  unfold afterLastSlash at h hdot ⊢
  rcases hs : segments s with _ | ⟨c, cs⟩
  · simp
  · obtain ⟨init, last, hl⟩ : ∃ init last, c :: cs = init ++ [last] :=
      ⟨_, _, (List.dropLast_append_getLast (by simp)).symm⟩
    rw [hs, hl] at h hdot
    have h1 : last ≠ "" := by simpa using h
    have h2 : last ≠ "." := by simpa using hdot
    rw [hl, List.filter_append]
    simp [h1, h2]

theorem splitOn_eq_self {s : String} (h : '/' ∉ s.toList) : s.toList.splitOn '/' = [s.toList] := by
  refine List.splitOnP_eq_singleton fun c hc => ?_
  simp only [beq_eq_false_iff_ne]
  intro hcs
  exact h (hcs ▸ hc)

/-- A text without a slash has one component at most. -/
theorem length_parts_le_one {s : String} (h : '/' ∉ s.toList) : (parts s).length ≤ 1 := by
  refine (List.length_filter_le _ _).trans ?_
  simp [segments, splitOn_eq_self h]

example : stem "/srv/web.min.css" = "web.min" ∧ stem "/srv/.css" = ".css" := by decide

example : name "/srv/odoo/" = "odoo" ∧ afterLastSlash "/srv/odoo/" = "" := by decide

/-! ## Pure paths

A path as its root and its components, `..` among them: `pathlib` leaves those to the file
system. `resolve` takes them away, for a tree without links. -/

/-- `PurePosixPath` -/
structure PurePath where
  root : String
  comps : List String
deriving DecidableEq

/-- A text that is one component of a path, and no dots. -/
def IsComponent (s : String) : Prop := s ≠ "" ∧ s ≠ "." ∧ s ≠ ".." ∧ '/' ∉ s.toList

instance (s : String) : Decidable (IsComponent s) := inferInstanceAs (Decidable (_ ∧ _))

/-- `..` goes up. -/
def resolve (comps : List String) : List String :=
  comps.foldl (fun up c => if c = ".." then up.dropLast else up ++ [c]) []

theorem parts_of_isComponent {s : String} (h : IsComponent s) : parts s = [s] := by
  obtain ⟨hempty, hdot, -, hslash⟩ := h
  simp [parts, segments, splitOn_eq_self hslash, hempty, hdot]

theorem root_of_notMem {s : String} (h : '/' ∉ s.toList) : root s = "" := by
  unfold root
  split
  · rename_i heq
    exact absurd (heq ▸ List.mem_cons_self) h
  · rename_i heq
    exact absurd (heq ▸ List.mem_cons_self) h
  · rename_i heq
    exact absurd (heq ▸ List.mem_cons_self) h
  · rfl

theorem resolve_append {comps names : List String} (h : ".." ∉ names) :
    resolve (comps ++ names) = resolve comps ++ names := by
  unfold resolve
  rw [List.foldl_append]
  induction names using List.reverseRecOn with
  | nil => simp
  | append_singleton names c ih =>
    rw [List.mem_append, not_or] at h
    have hc : c ≠ ".." := fun heq => h.2 (heq ▸ List.mem_singleton_self _)
    rw [List.foldl_append, ih h.1, List.foldl_cons, List.foldl_nil, if_neg hc, List.append_assoc]

namespace PurePath

def ofText (s : String) : PurePath := ⟨PosixPath.root s, parts s⟩

/-- `p / s`: an absolute text begins anew. -/
def join (p : PurePath) (s : String) : PurePath :=
  if PosixPath.root s ≠ "" then ofText s else ⟨p.root, p.comps ++ parts s⟩

/-- `p / q` -/
def div (p q : PurePath) : PurePath := if q.root ≠ "" then q else ⟨p.root, p.comps ++ q.comps⟩

/-- `p.parent` -/
def parent (p : PurePath) : PurePath := ⟨p.root, p.comps.dropLast⟩

/-- `p.name`: nothing for a path without components. -/
def name (p : PurePath) : String := p.comps.getLast?.getD ""

/-- `p.suffix`: from the last dot of the name, if that is neither its first nor its last character. -/
def suffix (p : PurePath) : String :=
  let cs := p.name.toList
  let tail := (cs.reverse.takeWhile (· ≠ '.')).reverse
  if tail.length + 1 < cs.length ∧ tail ≠ [] then String.ofList ('.' :: tail) else ""

/-- `p.with_name(name)`, of a path that has a name. -/
def withName (p : PurePath) (name : String) : PurePath := ⟨p.root, p.comps.dropLast ++ [name]⟩

/-- `str(p)` -/
def str (p : PurePath) : String := render p.root p.comps

theorem withName_name {p : PurePath} (h : p.comps ≠ []) : p.withName p.name = p := by
  rw [withName, name, List.getLast?_eq_some_getLast h, Option.getD_some,
    List.dropLast_append_getLast h]

theorem name_withName (p : PurePath) (s : String) : (p.withName s).name = s := by
  simp [withName, name]

theorem div_parent_withName (dir p : PurePath) (s t : String) :
    (dir.div (p.withName s).parent).div ⟨"", [t]⟩ = dir.div (p.withName t) := by
  by_cases h : p.root = "" <;> simp [div, parent, withName, h]

/-- One is the other, or above it. -/
def IsAbove (p q : PurePath) : Prop := p.root = q.root ∧ resolve p.comps <+: resolve q.comps

def StrictlyBelow (p base : PurePath) : Prop :=
  base.IsAbove p ∧ resolve p.comps ≠ resolve base.comps

theorem join_of_isComponent {s : String} (h : IsComponent s) (p : PurePath) :
    p.join s = ⟨p.root, p.comps ++ [s]⟩ := by
  rw [join, if_neg (by rw [root_of_notMem h.2.2.2]; simp), parts_of_isComponent h]

end PurePath

/-! ## The upward walk -/

variable {α : Type}

/-- The walk, on the reversed component list: the head is the directory looked at. -/
def walkUp (test : List α → Bool) : List α → Option (List α)
  | [] => none
  | c :: up => if test (c :: up).reverse then some (c :: up).reverse else walkUp test up

/-- The nearest ancestor-or-self of `dir` that satisfies `test`; the root is not looked at. -/
def nearest (test : List α → Bool) (dir : List α) : Option (List α) :=
  walkUp test dir.reverse

/-- Where the walk stops: at the longest nonempty prefix that satisfies the test. -/
theorem nearest_eq_some_iff {test : List α → Bool} {dir d : List α} :
    nearest test dir = some d ↔
      d ≠ [] ∧ d <+: dir ∧ test d = true ∧
        ∀ e, d <+: e → e <+: dir → test e = true → e = d := by
  unfold nearest
  induction dir using List.reverseRecOn with
  | nil =>
    simp only [List.reverse_nil, walkUp, List.prefix_nil, reduceCtorEq, false_iff]
    rintro ⟨hne, rfl, _⟩
    exact hne rfl
  | append_singleton up c ih =>
    rw [List.reverse_append, List.reverse_singleton, List.singleton_append, walkUp,
      List.reverse_cons, List.reverse_reverse]
    by_cases ht : test (up ++ [c]) = true
    · rw [if_pos ht, Option.some.injEq]
      constructor
      · rintro rfl
        exact ⟨by simp, List.prefix_refl _, ht, fun e hde hed _ => hed.eq_of_length_le hde.length_le⟩
      · rintro ⟨_, hd, _, hmax⟩
        exact hmax _ hd (List.prefix_refl _) ht
    · rw [if_neg ht, ih]
      have hstep : ∀ e : List α, test e = true → (e <+: up ++ [c] ↔ e <+: up) := by
        intro e he
        rw [List.prefix_concat_iff]
        exact ⟨fun h => h.resolve_left (fun heq => ht (heq ▸ he)), Or.inr⟩
      constructor
      · rintro ⟨hne, hd, htd, hmax⟩
        exact ⟨hne, (hstep d htd).mpr hd, htd,
          fun e hde he hte => hmax e hde ((hstep e hte).mp he) hte⟩
      · rintro ⟨hne, hd, htd, hmax⟩
        exact ⟨hne, (hstep d htd).mp hd, htd,
          fun e hde he hte => hmax e hde ((hstep e hte).mpr he) hte⟩

end PosixPath
end OdooSemantic
