import Mathlib.Data.Option.Basic
import OdooSemantic.Indexer.ParserJs
import OdooSemantic.Lib.Utf8
import OdooSemantic.Proof.SlidingWindows

/-!
# What is cut out of a JavaScript file

A unit is where its node is, by bytes, and it is cut from the text by characters. Each character of
more than one byte before the node moves the cut on, and each one inside makes it longer; so the cut
is the node's text only if the text happens to stand there again.
-/

namespace OdooSemantic
namespace ParserJs

open PyText

/-! ## The node -/

/-- What the encoding has more of than the text. -/
def extraBytes (cs : List Char) : Nat := (encode cs).length - cs.length

/-- The node is `inside`, with these texts before and behind. -/
structure Spans (node : Node) (before inside after : List Char) : Prop where
  start : node.startByte = (encode before).length
  stop : node.endByte = (encode (before ++ inside)).length

/-- As many characters behind the beginning as there are bytes before the node, its text stands again;
    and there it has no more bytes than characters, or ends the file. -/
structure StandsAgain (before inside after : List Char) : Prop where
  again : inside <+: (before ++ inside ++ after).drop (before.length + extraBytes before)
  ends : extraBytes inside = 0 ∨
    (before ++ inside ++ after).length ≤ before.length + extraBytes before + inside.length

theorem length_encode_eq (cs : List Char) : (encode cs).length = cs.length + extraBytes cs := by
  have := length_le_length_encode cs
  unfold extraBytes
  omega

/-- With ASCII before it and in it, the text is where it is. -/
theorem standsAgain_of_extraBytes {before inside : List Char} (after : List Char)
    (hbefore : extraBytes before = 0) (hinside : extraBytes inside = 0 ∨ after = []) :
    StandsAgain before inside after where
  again := by simp [hbefore]
  ends := by
    rcases hinside with h | rfl
    · exact Or.inl h
    · exact Or.inr (by simp [hbefore])

theorem text_eq {node : Node} {before inside after : List Char}
    (h : Spans node before inside after) :
    node.text (encode (before ++ inside ++ after)) = inside := by
  rw [Node.text, Node.bytes, h.start, h.stop, encode_append (before ++ inside) after,
    List.take_left, encode_append, List.drop_left, decode_encode]

/-! ## The cut -/

theorem take_length_add_eq_iff {A : Type} {w l : List A} {m : Nat} :
    l.take (w.length + m) = w ↔ w <+: l ∧ (m = 0 ∨ l.length ≤ w.length) := by
  constructor
  · intro h
    have hlength := congrArg List.length h
    rw [List.length_take] at hlength
    exact ⟨h ▸ List.take_prefix _ _, by omega⟩
  · rintro ⟨⟨rest, rfl⟩, hend⟩
    rw [List.take_append, List.take_of_length_le (by omega), Nat.add_sub_cancel_left]
    rcases hend with rfl | hle
    · simp
    · have hnil : rest = [] := by
        rw [List.length_append] at hle
        exact List.length_eq_zero_iff.mp (by omega)
      simp [hnil]

theorem slice_eq_iff {node : Node} {before inside after : List Char}
    (h : Spans node before inside after) :
    slice (before ++ inside ++ after) node = String.ofList inside ↔
      StandsAgain before inside after := by
  have hcut : node.endByte - node.startByte = inside.length + extraBytes inside := by
    rw [h.start, h.stop, encode_append, List.length_append, length_encode_eq inside]
    omega
  rw [slice, String.ofList_inj, List.drop_take, hcut, take_length_add_eq_iff, h.start,
    length_encode_eq before, List.length_drop]
  constructor
  · rintro ⟨hagain, hend⟩
    exact ⟨hagain, hend.imp_right fun hle => by omega⟩
  · rintro ⟨hagain, hend⟩
    exact ⟨hagain, hend.imp_right fun hle => by omega⟩

/-! ## The units -/

/-- The unit that is made of a node, in a file of this era. -/
def entityAt (source : List UInt8) (stem era : String) : Option Node × Node → Option JSEntity :=
  if era = "era1" then era1Entity source
  else if era = "era2" then era2Entity source stem
  else era3Entity source stem

/-- Every unit is cut in the same way. -/
theorem content_of_entityAt {source : List UInt8} {stem era : String} {parent : Option Node}
    {node : Node} {e : JSEntity} (h : entityAt source stem era (parent, node) = some e) :
    e.content = slice (decode source) node := by
  unfold entityAt at h
  split at h
  · simp only [era1Entity, Option.bind_eq_bind, Option.bind_eq_some_iff, Option.pure_def,
      Option.some.injEq] at h
    obtain ⟨_, -, _, -, _, -, _, -, rfl⟩ := h
    rfl
  · split at h
    · simp only [era2Entity, Option.bind_eq_bind, Option.bind_eq_some_iff, Option.pure_def,
        Option.some.injEq] at h
      obtain ⟨_, -, _, -, _, -, _, -, _, -, rfl⟩ := h
      rfl
    · rw [era3Entity] at h
      split at h
      · obtain rfl := Option.some.inj h
        rfl
      · simp only [Option.bind_eq_bind, Option.bind_eq_some_iff, Option.pure_def,
          Option.some.injEq] at h
        obtain ⟨_, -, _, -, _, -, rfl⟩ := h
        rfl

/-- A text is told from its windows. -/
theorem emit_inj {content content' : String} :
    Chunking.emit content = Chunking.emit content' ↔ content = content' := by
  constructor
  · intro h
    have hpairs : Function.Injective fun w : Nat × List Char => (w.1, String.ofList w.2) := by
      intro v w hvw
      obtain ⟨hidx, htext⟩ := Prod.mk.inj hvw
      exact Prod.ext hidx (String.ofList_inj.mp htext)
    rw [Chunking.emit_eq, Chunking.emit_eq] at h
    have hsame := List.map_injective_iff.mpr hpairs h
    have htexts := congrArg (fun ws => Windows.reassemble Chunking.sizes.overlap (ws.map Prod.snd))
      hsame
    simp only [(Chunking.covers_oneOrLoop _).whole] at htexts
    exact String.toList_inj.mp htexts
  · rintro rfl
    rfl

/-- Whatever the unit is, its chunks are the windows of its node's own source if that stands again
where the unit is cut. -/
theorem js_chunk_content_iff {before inside after : List Char} {stem era : String}
    {parent : Option Node} {node : Node} {e : JSEntity} (hspans : Spans node before inside after)
    (hentity : entityAt (encode (before ++ inside ++ after)) stem era (parent, node) = some e) :
    Chunking.emit e.content =
        Chunking.emit (String.ofList (node.text (encode (before ++ inside ++ after)))) ↔
      StandsAgain before inside after := by
  rw [emit_inj, text_eq hspans, content_of_entityAt hentity, decode_encode, slice_eq_iff hspans]

namespace Accent

def comment : String := "/** @odoo-module é */ "

def component : String := "class A \x7b\x7d"

/-- The class, in a file that begins with so many bytes. -/
def classNode (start : Nat) : Node :=
  .mk "class_declaration" start (start + 10)
    [.mk "identifier" (start + 6) (start + 7) [], .mk "class_body" (start + 8) (start + 10) []]

def file : List UInt8 := encode (comment ++ component).toList

theorem js_chunk_content_ascii :
    Chunking.emit "class A \x7b\x7d" = Chunking.emit (String.ofList
        ((classNode 0).text (encode ([] ++ component.toList ++ [])))) ↔
      StandsAgain [] component.toList [] :=
  @js_chunk_content_iff [] component.toList [] "a" "era3" none (classNode 0)
    ⟨"A", "class A \x7b\x7d"⟩ ⟨by decide, by decide⟩ (by decide)

/-- **One accent in a comment, and the component has lost its first letter.** -/
theorem cut_one_byte_late :
    Spans (classNode 23) comment.toList component.toList [] ∧
      String.ofList ((classNode 23).text file) = "class A \x7b\x7d" ∧
      parseFile file (.mk "program" 0 33 [classNode 23]) "a.js" =
        ("era3", [("A", [(0, "lass A \x7b\x7d")])]) := by
  refine ⟨⟨by decide, by decide⟩, by decide, by decide⟩

end Accent

end ParserJs
end OdooSemantic
