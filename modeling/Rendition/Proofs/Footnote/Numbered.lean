/-
# Rendition.Proofs.Footnote.Numbered -- which footnotes carry a number

Numbering visits the passages, and every footnote that it leaves there carries
the number of a definition (`numbered_of_mem_passages`).  Tables are not visited:
what stands in the title of a table is handed back with the number it was written
with, if it had one.  So all footnotes of a numbered document carry numbers exactly
if those in the titles of tables did before (`numbered_outside_tables`).
-/
import Rendition.Proofs.Footnote.Defining
import Rendition.Proofs.Tree.Titles

namespace Rendition.Footnote

set_option autoImplicit false

/-- Whether a node carries a number from one up to a bound. -/
def Mention.numbered (bound : Nat) (node : Mention) : Bool :=
  node.id.any fun id => 1 ≤ id.toNat ∧ id.toNat ≤ bound

def numbered (bound : Nat) (content : List Inline) : Bool :=
  (Inline.mentionsAll content).all (Mention.numbered bound)

/-- A planned mention carries its rank, which is the number of a definition. -/
theorem numbered_mentionAt {mentions : List Mention} (few : allocations mentions < UInt32.size)
    {position : Nat} (inside : position < mentions.length) :
    ((plan mentions).mentionAt mentions position).numbered (allocations mentions) := by
  have positive : 1 ≤ rank mentions position := Nat.succ_pos _
  have bounded := rank_le_allocations inside
  have small : (UInt32.ofNat (rank mentions position)).toNat = rank mentions position :=
    UInt32.toNat_ofNat_of_lt' (bounded.trans_lt few)
  simp only [Mention.numbered, Plan.mentionAt, plan, Option.any_some, small, decide_eq_true_eq]
  exact ⟨positive, bounded⟩

variable {document : Document}

theorem numbered_of_mem_passages
    (few : (resolveDocument document).definitions.length < UInt32.size) {passage : List Inline}
    (member : passage ∈ (resolveDocument document).document.passages) :
    numbered (resolveDocument document).definitions.length passage := by
  rw [length_definitions] at few ⊢
  rw [numbered, List.all_eq_true]
  intro node within
  have node_mem : node ∈ (resolveDocument document).document.mentions :=
    List.mem_flatMap.mpr ⟨passage, member, within⟩
  rw [mentions_resolveDocument, List.mem_map] at node_mem
  obtain ⟨position, remains, rfl⟩ := node_mem
  exact numbered_mentionAt few ((Plan.mem_remaining_iff _ _).mp remains).1

/-- **All footnotes outside the titles of tables carry the number of a definition**, in every
passage of the numbered document.  The titles of tables are those that were written, so that all
footnotes of the document carry such a number exactly if those in the titles of tables already
did. -/
theorem numbered_outside_tables (document : Document)
    (few : (resolveDocument document).definitions.length < UInt32.size) :
    (∀ passage ∈ (resolveDocument document).document.passages,
        numbered (resolveDocument document).definitions.length passage) ∧
      (resolveDocument document).document.tableTitles = document.tableTitles ∧
      ((resolveDocument document).document.everywhere
          (numbered (resolveDocument document).definitions.length) ↔
        ∀ title ∈ document.tableTitles,
          numbered (resolveDocument document).definitions.length title) := by
  have passages : ∀ passage ∈ (resolveDocument document).document.passages,
      numbered (resolveDocument document).definitions.length passage :=
    fun _ member => numbered_of_mem_passages few member
  have titles : (resolveDocument document).document.tableTitles = document.tableTitles :=
    Revision.tableTitles_document resolveAll document .empty
  refine ⟨passages, titles, ?_⟩
  rw [Document.everywhere_iff, titles]
  exact and_iff_right passages

namespace Example

/-- A table under a title, and a paragraph with a footnote inside a footnote after it. -/
def tabled (title : List Inline) : Document where
  attributes := .empty
  header := none
  blocks :=
    [.table { Meta.empty with title } [],
      .paragraph .empty [note none [.ofText "x", note (some "a") [.ofText "y"]]]]

theorem tabled_numbered :
    (resolveDocument (tabled [.ofText "t"])).definitions.length < UInt32.size ∧
      (resolveDocument (tabled [.ofText "t"])).document.everywhere
        (numbered (resolveDocument (tabled [.ofText "t"])).definitions.length) := by
  have few : (resolveDocument (tabled [.ofText "t"])).definitions.length < UInt32.size := by
    decide
  obtain ⟨-, -, all⟩ := numbered_outside_tables (tabled [.ofText "t"]) few
  exact ⟨few, all.mpr (by decide)⟩

/-- A footnote in the title of a table stays without a number. -/
theorem tabled_unnumbered :
    ¬ (resolveDocument (tabled [note none [.ofText "t"]])).document.everywhere
      (numbered (resolveDocument (tabled [note none [.ofText "t"]])).definitions.length) := by
  decide

end Example

end Rendition.Footnote
