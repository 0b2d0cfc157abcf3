import OdooSemantic.Indexer.SlidingWindows

/-!
# The windows of a text

The loop covers every text that is not empty, and a text that fits is its only window either way. On
the empty text the loop has no window and the guard has one.
-/

namespace OdooSemantic
namespace Chunking

open Windows

/-- Each of the five functions. -/
def windowFunctions : List (List Char → WindowTexts) :=
  [WriterPgvector.sliding, ParserJs.slidingChunks, ParserCss.emit, ParserScss.emit, ParserLess.emit]

/-- Every function covers the text with windows, and all of them have the same ones. -/
structure SameWindows (text : List Char) : Prop where
  covers : ∀ f ∈ windowFunctions, Covers sizes text (f text)
  same : ∀ f ∈ windowFunctions, ∀ g ∈ windowFunctions,
    (f text).map Prod.snd = (g text).map Prod.snd

theorem windowFunctions_eq : windowFunctions =
    [oneOrLoop, windowLoop, oneOrLoop, oneOrLoop, oneOrLoop] := rfl

theorem covers_oneOrLoop (text : List Char) : Covers sizes text (oneOrLoop text) := by
  unfold oneOrLoop
  split
  · exact covers_singleton ‹_›
  · rename_i hlong
    refine covers_loop fun hnil => hlong ?_
    rw [hnil]
    exact Nat.zero_le _

theorem oneOrLoop_eq {text : List Char} (h : text ≠ []) : oneOrLoop text = windowLoop text := by
  unfold oneOrLoop
  split
  · exact (loop_eq_singleton h ‹_›).symm
  · rfl

theorem oneOrLoop_nil : oneOrLoop [] = [(0, [])] := rfl

theorem windowLoop_nil : windowLoop [] = [] := loop_of_le (Nat.zero_le _)

/-- Every text but the empty one has the same windows in all of the five, and they make it up. -/
theorem same_windows_iff (text : List Char) : SameWindows text ↔ text ≠ [] := by
  constructor
  · rintro ⟨-, hsame⟩ rfl
    have h := hsame oneOrLoop (by simp [windowFunctions_eq]) windowLoop (by simp [windowFunctions_eq])
    rw [oneOrLoop_nil, windowLoop_nil] at h
    exact absurd h (by simp)
  · intro h
    have hall : ∀ f ∈ windowFunctions, f text = windowLoop text := by
      rw [windowFunctions_eq]
      simp [oneOrLoop_eq h]
    constructor
    · intro f hf
      rw [hall f hf, ← oneOrLoop_eq h]
      exact covers_oneOrLoop text
    · intro f hf g hg
      rw [hall f hf, hall g hg]

/-- An empty file: four of the functions have one empty window, and the JS parser's has none. -/
theorem empty_text_differs : ¬ SameWindows [] ∧
    WriterPgvector.sliding [] = [(0, [])] ∧ ParserJs.slidingChunks [] = [] := by
  refine ⟨fun h => ?_, oneOrLoop_nil, windowLoop_nil⟩
  have hsame := h.same WriterPgvector.sliding (by simp [windowFunctions]) ParserJs.slidingChunks
    (by simp [windowFunctions])
  rw [WriterPgvector.sliding, ParserJs.slidingChunks, oneOrLoop_nil, windowLoop_nil] at hsame
  exact absurd hsame (by simp)

end Chunking
end OdooSemantic
