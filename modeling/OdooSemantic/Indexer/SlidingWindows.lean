import OdooSemantic.Indexer.Stylesheets
import OdooSemantic.Lib.Windows

/-!
# The five copies of the window loop

`_sliding` of `src/indexer/writer_pgvector.py`, `_sliding_chunks` of `parser_js.py` and `_emit` of
`parser_css.py`, `parser_scss.py` and `parser_less.py`. All of them run the same loop; the one of the
JS parser runs it on every text, and the others hand on a text that fits in a window as it is.
-/

namespace OdooSemantic

/-- The numbers of the windows and their texts. -/
abbrev WindowTexts := List (Nat × List Char)

namespace Chunking

def sizes : Windows.Sizes := ⟨window, overlap, by decide⟩

/-- `while start < len(content)` -/
def windowLoop (content : List Char) : WindowTexts := Windows.loop sizes content 0 0

/-- `if len(content) <= _WINDOW`, and the loop. -/
def oneOrLoop (content : List Char) : WindowTexts :=
  if content.length ≤ window then [(0, content)] else windowLoop content

end Chunking

open Chunking

/-- `_sliding(raw, …)` -/
def WriterPgvector.sliding (raw : List Char) : WindowTexts := oneOrLoop raw

/-- `_sliding_chunks(content, …)` -/
def ParserJs.slidingChunks (content : List Char) : WindowTexts := windowLoop content

/-- `_sliding_chunks(content, …)` -/
def ParserCss.slidingChunks (content : List Char) : WindowTexts := windowLoop content

/-- `_emit(content, …)` -/
def ParserCss.emit (content : List Char) : WindowTexts :=
  if content.length ≤ window then [(0, content)] else ParserCss.slidingChunks content

/-- `_emit(content, …)` -/
def ParserScss.emit (content : List Char) : WindowTexts := oneOrLoop content

/-- `_emit(content, …)` -/
def ParserLess.emit (content : List Char) : WindowTexts := oneOrLoop content

namespace Chunking

/-! The same windows, told by what is left of the text. -/

def asStrings (ws : WindowTexts) : List (Nat × String) := ws.map fun w => (w.1, String.ofList w.2)

theorem slidingFrom_drop (content : List Char) (start idx : Nat) :
    slidingFrom idx (content.drop start) = asStrings (Windows.loop sizes content start idx) := by
  induction hn : content.length - start using Nat.strongRecOn generalizing start idx with
  | ind n ih =>
    rcases Nat.lt_or_ge start content.length with hlt | hge
    · have hne : content.drop start ≠ [] := by
        rw [Ne, List.drop_eq_nil_iff]
        omega
      rw [slidingFrom, if_neg hne]
      rcases Nat.lt_or_ge (start + sizes.window) content.length with hmore | hfits
      · have hlong : ¬ (content.drop start).length ≤ window := by
          rw [List.length_drop]
          have : sizes.window = window := rfl
          omega
        have hstep : sizes.window - sizes.overlap = window - overlap := rfl
        have hpos : 0 < window - overlap := by decide
        rw [if_neg hlong, List.drop_drop, Windows.loop_of_exceeds hmore, hstep,
          ih _ (by omega) _ _ rfl]
        rfl
      · have hshort : (content.drop start).length ≤ window := by
          rw [List.length_drop]
          have : sizes.window = window := rfl
          omega
        rw [if_pos hshort, Windows.loop_of_fits hlt hfits]
        rfl
    · rw [Windows.loop_of_le hge, slidingFrom, if_pos (List.drop_eq_nil_iff.mpr hge)]
      rfl

theorem slidingChunks_eq (content : String) :
    slidingChunks content = asStrings (ParserJs.slidingChunks content.toList) := by
  rw [slidingChunks, ParserJs.slidingChunks, windowLoop, ← slidingFrom_drop, List.drop_zero]

theorem emit_eq (content : String) : emit content = asStrings (oneOrLoop content.toList) := by
  unfold emit oneOrLoop
  rw [String.length_toList]
  split
  · simp [asStrings]
  · exact slidingChunks_eq content

end Chunking
end OdooSemantic
