import Mathlib.Data.List.Chain
import Mathlib.Data.List.TakeDrop

/-!
# Windows over a list

The loop that cuts a list into windows of one size, each of which begins before the last one ends.
Every window but the last is of the full size, so the last one is longer than the overlap.
-/

namespace Windows

/-- How long a window is and how much of it the next one has again. -/
structure Sizes where
  window : Nat
  overlap : Nat
  overlap_lt : overlap < window

variable {A : Type} (z : Sizes) (content : List A)

/-- The windows from `start` on, numbered from `idx` on. -/
def loop (start idx : Nat) : List (Nat × List A) :=
  if start < content.length then
    let stop := min (start + z.window) content.length
    (idx, (content.take stop).drop start) ::
      if stop = content.length then [] else loop (stop - z.overlap) (idx + 1)
  else []
termination_by content.length - start
decreasing_by
  have := z.overlap_lt
  omega

/-- The first window, and what is behind the overlap in the others. -/
def reassemble (overlap : Nat) : List (List A) → List A
  | [] => []
  | w :: ws => w ++ ws.flatMap (·.drop overlap)

/-- The end of the one is the beginning of the other. -/
def Overlap (overlap : Nat) (v w : List A) : Prop :=
  overlap ≤ v.length ∧ overlap ≤ w.length ∧ v.drop (v.length - overlap) = w.take overlap

/-- The text in windows. -/
structure Covers (text : List A) (ws : List (Nat × List A)) : Prop where
  numbered : ws.map Prod.fst = List.range ws.length
  small : ∀ w ∈ ws, w.2.length ≤ z.window
  overlapping : ws.IsChain fun v w => Overlap z.overlap v.2 w.2
  whole : reassemble z.overlap (ws.map Prod.snd) = text

variable {z content} {start idx : Nat}

theorem loop_of_le (h : content.length ≤ start) : loop z content start idx = [] := by
  rw [loop, if_neg (by omega)]

/-- The last window. -/
theorem loop_of_fits (h : start < content.length) (hfits : content.length ≤ start + z.window) :
    loop z content start idx = [(idx, content.drop start)] := by
  rw [loop, if_pos h, Nat.min_eq_right hfits]
  simp

/-- Any other. -/
theorem loop_of_exceeds (h : start + z.window < content.length) :
    loop z content start idx = (idx, (content.drop start).take z.window) ::
      loop z content (start + (z.window - z.overlap)) (idx + 1) := by
  have hlt := z.overlap_lt
  have hstop : ¬ start + z.window = content.length := Nat.ne_of_lt h
  rw [loop, if_pos (by omega), Nat.min_eq_left (Nat.le_of_lt h)]
  simp only [hstop, if_false, List.drop_take, Nat.add_sub_cancel_left,
    Nat.add_sub_assoc (Nat.le_of_lt hlt)]

/-- What comes first. -/
theorem head?_loop (h : start < content.length) :
    ((loop z content start idx).head?.map Prod.snd) = some ((content.drop start).take z.window) := by
  rcases Nat.lt_or_ge (start + z.window) content.length with hlt | hge
  · rw [loop_of_exceeds hlt]
    rfl
  · rw [loop_of_fits h hge, List.take_of_length_le (by rw [List.length_drop]; omega)]
    rfl

/-- Behind the overlap of a first window that is long enough, the rest is told from the whole. -/
theorem flatMap_drop_eq {overlap : Nat} {ws : List (List A)} {w : List A}
    (hw : ws.head? = some w) (hlen : overlap ≤ w.length) :
    ws.flatMap (·.drop overlap) = (reassemble overlap ws).drop overlap := by
  obtain ⟨rest, rfl⟩ := List.head?_eq_some_iff.mp hw
  rw [reassemble, List.drop_append_of_le_length hlen, List.flatMap_cons]

theorem reassemble_loop (h : start < content.length) :
    reassemble z.overlap ((loop z content start idx).map Prod.snd) = content.drop start := by
  have hlt := z.overlap_lt
  induction hn : content.length - start using Nat.strongRecOn generalizing start idx with
  | ind n ih =>
    rcases Nat.lt_or_ge (start + z.window) content.length with hmore | hfits
    · have hnext : start + (z.window - z.overlap) < content.length := by omega
      have hhead : ((loop z content (start + (z.window - z.overlap)) (idx + 1)).map Prod.snd).head?
          = some ((content.drop (start + (z.window - z.overlap))).take z.window) := by
        rw [List.head?_map, head?_loop hnext]
      have hlen : z.overlap ≤
          ((content.drop (start + (z.window - z.overlap))).take z.window).length := by
        rw [List.length_take, List.length_drop]
        omega
      rw [loop_of_exceeds hmore, List.map_cons, reassemble, flatMap_drop_eq hhead hlen,
        ih _ (by omega) hnext rfl, List.drop_drop,
        show start + (z.window - z.overlap) + z.overlap = start + z.window by omega,
        ← List.drop_drop, List.take_append_drop]
    · rw [loop_of_fits h hfits]
      simp [reassemble]

theorem map_fst_loop (start idx : Nat) : (loop z content start idx).map Prod.fst =
    List.range' idx (loop z content start idx).length := by
  induction start, idx using loop.induct z content with
  | case1 start idx h stop ih =>
    rw [loop, if_pos h]
    by_cases hstop : stop = content.length
    · simp only [stop] at hstop
      simp [hstop]
    · have hrest := ih hstop
      simp only [stop] at hstop hrest
      simp only [if_neg hstop, List.map_cons, hrest, List.length_cons, List.range'_succ]
  | case2 start idx h => rw [loop, if_neg h]; rfl

theorem length_of_mem_loop (start idx : Nat) :
    ∀ w ∈ loop z content start idx, w.2.length ≤ z.window := by
  induction start, idx using loop.induct z content with
  | case1 start idx h stop ih =>
    rw [loop, if_pos h, List.forall_mem_cons]
    refine ⟨?_, ?_⟩
    · simp only [List.length_drop, List.length_take]
      omega
    · split
      · simp
      · exact ih ‹_›
  | case2 start idx h => simp [loop, h]

theorem isChain_loop (start idx : Nat) :
    (loop z content start idx).IsChain fun v w => Overlap z.overlap v.2 w.2 := by
  have hlt := z.overlap_lt
  induction hn : content.length - start using Nat.strongRecOn generalizing start idx with
  | ind n ih =>
    rcases Nat.lt_or_ge (start + z.window) content.length with hmore | hfits
    · have hnext : start + (z.window - z.overlap) < content.length := by omega
      have hrest := ih _ (by omega) (start + (z.window - z.overlap)) (idx + 1) rfl
      rw [loop_of_exceeds hmore, List.isChain_cons]
      refine ⟨fun w hw => ?_, hrest⟩
      have hhead := @head?_loop _ z content _ (idx + 1) hnext
      rw [Option.mem_def.mp hw, Option.map_some, Option.some.injEq] at hhead
      have hfull : ((content.drop start).take z.window).length = z.window := by
        rw [List.length_take, List.length_drop]
        omega
      refine ⟨by rw [hfull]; omega, ?_, ?_⟩
      · rw [hhead, List.length_take, List.length_drop]
        omega
      · rw [hhead, hfull, List.drop_take, List.drop_drop, List.take_take,
          Nat.min_eq_left (Nat.le_of_lt hlt), Nat.sub_sub_self (Nat.le_of_lt hlt)]
    · rcases Nat.lt_or_ge start content.length with h | h
      · rw [loop_of_fits h hfits]
        exact List.IsChain.singleton _
      · rw [loop_of_le h]
        exact List.IsChain.nil

/-- **The loop cuts a list that is not empty into windows.** -/
theorem covers_loop (h : content ≠ []) : Covers z content (loop z content 0 0) where
  numbered := by rw [map_fst_loop, List.range_eq_range']
  small := length_of_mem_loop 0 0
  overlapping := isChain_loop 0 0
  whole := by rw [reassemble_loop (List.length_pos_iff.mpr h), List.drop_zero]

/-- A list that fits is one window. -/
theorem covers_singleton (h : content.length ≤ z.window) : Covers z content [(0, content)] where
  numbered := rfl
  small := by simpa using h
  overlapping := List.IsChain.singleton _
  whole := by simp [reassemble]

theorem loop_eq_singleton (h : content ≠ []) (hfits : content.length ≤ z.window) :
    loop z content 0 0 = [(0, content)] := by
  rw [loop_of_fits (List.length_pos_iff.mpr h) (by omega), List.drop_zero]

end Windows
