/-
# Rendition.Proofs.Tree.Passthrough -- documents without passthroughs

A passthrough hands text to the output as it is; all other nodes are escaped.  A
document without passthroughs keeps none through the numbering of its footnotes,
and neither do the definitions (`noPassthrough_resolveDocument`); the text of a
table cell is never read as one (`noPassthroughAll_parse`).
-/
import Rendition.Cell.Parse
import Rendition.Proofs.Footnote.Dense
import Rendition.Proofs.Tree.Everywhere

namespace Rendition

set_option autoImplicit false

mutual

/-- Whether no node at any depth is a passthrough. -/
def Inline.noPassthrough : Inline → Bool
  | .passthrough _ _ => false
  | .styled _ content _ | .link _ content _ | .crossReference _ content _
  | .footnote content _ _ _ => Inline.noPassthroughAll content
  | .text _ _ | .math _ _ _ | .command _ _ | .indexTerm _ _ _ => true

def Inline.noPassthroughAll : List Inline → Bool
  | [] => true
  | inline :: rest => inline.noPassthrough && Inline.noPassthroughAll rest

end

def Document.noPassthrough (document : Document) : Bool :=
  document.everywhere Inline.noPassthroughAll

/-! ## Footnotes -/

namespace Footnote

/-- No definition of the ledger has a passthrough. -/
def Ledger.NoPassthrough (ledger : Ledger) : Prop :=
  ∀ content ∈ ledger.contents, Inline.noPassthroughAll content

/-- What a footnote keeps and what it stores were its content or stored before. -/
theorem noPassthrough_enter {ledger : Ledger} {content : List Inline} (sound : ledger.NoPassthrough)
    (clean : Inline.noPassthroughAll content) (key : Option String) :
    Inline.noPassthroughAll (ledger.enter key content).2.1 ∧
      (ledger.enter key content).2.2.NoPassthrough := by
  have allocated : (ledger.allocate content).2.NoPassthrough := by
    intro other inside
    rw [Ledger.contents_allocate] at inside
    rcases List.mem_append.mp inside with known | new
    · exact sound other known
    · rw [List.mem_singleton.mp new]
      exact clean
  unfold Ledger.enter
  cases key with
  | none => exact ⟨clean, allocated⟩
  | some key =>
      dsimp only
      split
      · exact ⟨clean, allocated⟩
      · split
        · refine ⟨clean, fun other inside => ?_⟩
          rcases Ledger.mem_contents_define ledger content inside with known | rfl
          · exact sound other known
          · exact clean
        · exact ⟨rfl, sound⟩

mutual

theorem noPassthrough_resolve (inline : Inline) {ledger : Ledger} (sound : ledger.NoPassthrough)
    (clean : inline.noPassthrough) :
    (resolve inline ledger).1.noPassthrough ∧ (resolve inline ledger).2.NoPassthrough := by
  match inline with
  | .styled _ content _ | .link _ content _ | .crossReference _ content _ =>
      exact noPassthrough_resolveAll content sound clean
  | .footnote content key _ _ =>
      obtain ⟨content, sound⟩ := noPassthrough_resolveAll content sound clean
      exact noPassthrough_enter sound content key
  | .text _ _ | .math _ _ _ | .command _ _ | .indexTerm _ _ _ => exact ⟨rfl, sound⟩
  | .passthrough _ _ => exact absurd clean Bool.false_ne_true

theorem noPassthrough_resolveAll (content : List Inline) {ledger : Ledger}
    (sound : ledger.NoPassthrough) (clean : Inline.noPassthroughAll content) :
    Inline.noPassthroughAll (resolveAll content ledger).1 ∧
      (resolveAll content ledger).2.NoPassthrough := by
  match content with
  | [] => exact ⟨rfl, sound⟩
  | inline :: rest =>
      rw [Inline.noPassthroughAll, Bool.and_eq_true] at clean
      obtain ⟨first, sound⟩ := noPassthrough_resolve inline sound clean.1
      obtain ⟨others, sound⟩ := noPassthrough_resolveAll rest sound clean.2
      exact ⟨(Bool.and_eq_true ..).mpr ⟨first, others⟩, sound⟩

end

/-- Numbering the footnotes brings no passthrough into the document or the definitions. -/
theorem noPassthrough_resolveDocument {document : Document} (clean : document.noPassthrough) :
    (resolveDocument document).document.noPassthrough ∧
      ∀ definition ∈ (resolveDocument document).definitions,
        Inline.noPassthroughAll definition.content := by
  have keeps : Revision.Keeps resolveAll Inline.noPassthroughAll Ledger.NoPassthrough :=
    fun sound clean => noPassthrough_resolveAll _ sound clean
  have start : Ledger.empty.NoPassthrough := fun _ inside => absurd inside List.not_mem_nil
  obtain ⟨resolved, sound⟩ := keeps.document document start clean
  exact ⟨resolved, fun definition inside => sound _ (List.mem_map_of_mem inside)⟩

end Footnote

/-! ## Table cells -/

namespace Cell

theorem noPassthroughAll_prependChar (c : Char) {nodes : List Inline}
    (clean : Inline.noPassthroughAll nodes) :
    Inline.noPassthroughAll (prependChar c nodes) := by
  unfold prependChar
  split
  · exact clean
  · exact clean

/-- No table cell holds a passthrough. -/
theorem noPassthroughAll_parseFrom (before : Option Char) (cs : List Char) :
    Inline.noPassthroughAll (parseFrom before cs) := by
  fun_induction parseFrom before cs with
  | case1 before cs style inside rest found inner outer =>
      exact (Bool.and_eq_true ..).mpr ⟨inner, outer⟩
  | case2 => rfl
  | case3 before c rest found ih => exact noPassthroughAll_prependChar c ih

/-- A table cell has no passthrough. -/
theorem noPassthroughAll_parse (text : String) : Inline.noPassthroughAll (parse text) :=
  noPassthroughAll_parseFrom none text.toList

end Cell

end Rendition
