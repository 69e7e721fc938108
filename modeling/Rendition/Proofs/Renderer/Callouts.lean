/-
# Rendition.Proofs.Renderer.Callouts -- the callouts in the contexts of lists

The context of a list that belongs to a bundle carries the base of the bundle,
and each of its items the callout of its marker: its number, if it has one, and
the id made of the base and that number (`Explained`).  A list without a bundle
carries neither, and no other block carries them at all.
-/
import Mathlib.Data.List.Forall2
import Rendition.Proofs.Renderer.Throughout

namespace Rendition

set_option autoImplicit false

open Rendition.Callout

section Partners

variable {α β : Type} {R : α → β → Prop} {first : List α} {second : List β}

theorem exists_right_of_mem (related : List.Forall₂ R first second) {x : α} (inside : x ∈ first) :
    ∃ y ∈ second, R x y := by
  induction related with
  | nil => cases inside
  | cons head _ ih =>
      rcases List.mem_cons.mp inside with rfl | later
      · exact ⟨_, List.mem_cons_self, head⟩
      · obtain ⟨y, listed, known⟩ := ih later
        exact ⟨y, List.mem_cons_of_mem _ listed, known⟩

theorem exists_left_of_mem (related : List.Forall₂ R first second) {y : β}
    (inside : y ∈ second) : ∃ x ∈ first, R x y :=
  exists_right_of_mem (R := flip R) related.flip inside

end Partners

namespace Value

/-- The contexts of the items of a list; none for other blocks. -/
def items (value : Value) : List Value := (value.parts? "items").getD []

/-- Whether the context of an item carries a callout that is not null. -/
def HasCallout (item : Value) : Prop :=
  ∃ callout, item.get? "callout" = some callout ∧ callout ≠ .null

/-- The id of the callout of an item. -/
def calloutId? (item : Value) : Option Value := (item.get? "callout").bind (·.get? "id")

/-- The callout of an item with a marker, under a base. -/
def callout (base marker : String) : Value :=
  match markerOrdinal? marker with
  | none => .null
  | some ordinal =>
      .map [("ordinal", .int ordinal), ("id", .string (base ++ "-" ++ ordinal.repr))]

/-- The context of an item with a marker, in a list with a base. -/
structure Explained (base marker : String) (item : Value) : Prop where
  marked : item.get? "marker" = some (.string marker)
  carries : item.get? "callout" = some (callout base marker)

/-- An item carries a callout if and only if its marker has a number. -/
theorem Explained.hasCallout_iff {base marker : String} {item : Value}
    (explained : item.Explained base marker) :
    item.HasCallout ↔ (markerOrdinal? marker).isSome := by
  rw [HasCallout, explained.carries, Value.callout]
  cases markerOrdinal? marker <;> simp

theorem Explained.calloutId?_eq {base marker : String} {item : Value}
    (explained : item.Explained base marker) :
    item.calloutId? =
      (markerOrdinal? marker).map fun ordinal => .string (base ++ "-" ++ ordinal.repr) := by
  rw [calloutId?, explained.carries, Value.callout]
  cases markerOrdinal? marker <;> rfl

end Value

namespace Renderer

variable (renderer : Renderer)

/-! ## Items -/

/-- The items of a list with a bundle that fits their markers. -/
theorem explained_items (info : Meta) (bundle : Bundle) (position : Nat) (serial : UInt32)
    (entries : List (ListItem Block))
    (fits : bundle.ordinals.drop position = (entries.map (·.marker)).map markerOrdinal?) :
    List.Forall₂ (Value.Explained bundle.base) (entries.map (·.marker))
      (renderer.items info (some bundle) position serial entries).1 := by
  induction entries generalizing position serial with
  | nil => exact .nil
  | cons entry rest ih =>
      obtain ⟨marker, content, children⟩ := entry
      have inside : bundle.ordinals[position]? = some (markerOrdinal? marker) := by
        rw [← List.head?_drop, fits]
        rfl
      have others : bundle.ordinals.drop (position + 1) =
          (rest.map (·.marker)).map markerOrdinal? := by
        rw [← List.tail_drop, fits]
        rfl
      have same : calloutValue (some bundle) position = Value.callout bundle.base marker := by
        rw [calloutValue, Bundle.itemOrdinal?, inside, Value.callout]
        cases markerOrdinal? marker <;> rfl
      refine .cons ⟨rfl, ?_⟩ (ih (position + 1) _ others)
      exact congrArg some same

/-- Without a bundle no item of a list carries a callout. -/
theorem not_hasCallout_of_items (info : Meta) (position : Nat) (serial : UInt32)
    (entries : List (ListItem Block)) :
    ∀ item ∈ (renderer.items info none position serial entries).1, ¬ item.HasCallout := by
  induction entries generalizing position serial with
  | nil => exact fun _ inside => absurd inside List.not_mem_nil
  | cons entry rest ih =>
      rintro item inside ⟨callout, carried, shown⟩
      rcases List.mem_cons.mp inside with rfl | later
      · exact shown (Option.some.inj carried).symm
      · exact ih _ _ item later ⟨callout, carried, shown⟩

theorem not_hasCallout_of_descriptions (info : Meta) (serial : UInt32)
    (entries : List (DescriptionItem Block)) :
    ∀ item ∈ (renderer.descriptions info serial entries).1, ¬ item.HasCallout := by
  induction entries generalizing serial with
  | nil => exact fun _ inside => absurd inside List.not_mem_nil
  | cons entry rest ih =>
      rintro item inside ⟨callout, carried, shown⟩
      rcases List.mem_cons.mp inside with rfl | later
      · cases carried
      · exact ih _ item later ⟨callout, carried, shown⟩

/-! ## Blocks -/

/-- A block that belongs to no bundle carries no base, and its items carry no callouts. -/
theorem block_alone (serial : UInt32) (b : Block) :
    (renderer.block none serial b).1.get? "callout_base" = none ∧
      ∀ item ∈ (renderer.block none serial b).1.items, ¬ item.HasCallout := by
  cases b with
  | list info kind entries =>
      exact ⟨rfl, not_hasCallout_of_items renderer info 0 serial entries⟩
  | descriptions info entries =>
      exact ⟨rfl, not_hasCallout_of_descriptions renderer info serial entries⟩
  | _ => exact ⟨rfl, fun _ inside => absurd inside List.not_mem_nil⟩

end Renderer

end Rendition
