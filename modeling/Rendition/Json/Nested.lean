/-
# Rendition.Json.Nested -- decoding of trees

A decoder of a tree calls itself on the elements of a member.  `nested?` hands
each element over together with the proof that it is smaller than the object it
came from, so that such a decoder is well-founded; `nested?_eq` says that it is
otherwise the plain decoding of a member that is a list.
-/
import Rendition.Json.Basic

namespace Rendition.Json

set_option autoImplicit false

theorem sizeOf_lt_of_lookup {key : String} {members : List (String × Json)} {value : Json}
    (found : members.lookup key = some value) : sizeOf value < sizeOf members := by
  induction members with
  | nil => simp at found
  | cons member rest ih =>
      obtain ⟨other, json⟩ := member
      rw [List.lookup_cons] at found
      split at found
      · cases found
        simp only [List.cons.sizeOf_spec, Prod.mk.sizeOf_spec]
        omega
      · have smaller := ih found
        simp only [List.cons.sizeOf_spec]
        omega

/-- A member is smaller than its object, so that decoding may recur on it. -/
theorem sizeOf_lt_of_field? {json value : Json} {key : String}
    (found : json.field? key = some value) : sizeOf value < sizeOf json := by
  cases json with
  | object members =>
      have smaller := sizeOf_lt_of_lookup (show members.lookup key = some value from found)
      simp only [object.sizeOf_spec]
      omega
  | _ => simp [field?] at found

theorem sizeOf_lt_of_mem_elements {element : Json} {elements : List Json}
    (inside : element ∈ elements) : sizeOf element < sizeOf (Json.array elements) := by
  have smaller := List.sizeOf_lt_of_mem inside
  simp only [array.sizeOf_spec]
  omega

/-- The elements of a list, each decoded with the knowledge that it is one of them. -/
def traverse {α : Type} : (elements : List Json) → ((json : Json) → json ∈ elements → Option α) →
    Option (List α)
  | [], _ => some []
  | first :: rest, decode => do
      let value ← decode first List.mem_cons_self
      let values ← traverse rest fun json inside => decode json (List.mem_cons_of_mem first inside)
      return value :: values

/-- The elements of an array, each decoded with the knowledge that it is smaller. -/
def nestedElements? {α : Type} : (json : Json) →
    ((element : Json) → sizeOf element < sizeOf json → Option α) → Option (List α)
  | .array elements, decode =>
      traverse elements fun element inside => decode element (sizeOf_lt_of_mem_elements inside)
  | _, _ => none

/-- The elements of a member, each decoded with the knowledge that it is smaller. -/
def nested? {α : Type} (json : Json) (key : String)
    (decode : (element : Json) → sizeOf element < sizeOf json → Option α) : Option (List α) :=
  match found : json.field? key with
  | some value =>
      value.nestedElements? fun element smaller =>
        decode element (Nat.lt_trans smaller (sizeOf_lt_of_field? found))
  | none => none

/-- The proof that an element is one of the list does not matter to what is decoded. -/
theorem traverse_eq {α : Type} (decode : Json → Option α) (elements : List Json) :
    traverse elements (fun json _ => decode json) = elements.mapM decode := by
  induction elements with
  | nil => rfl
  | cons first rest ih => simp [traverse, ih]

theorem nestedElements?_eq {α : Type} (decode : Json → Option α) (json : Json) :
    json.nestedElements? (fun element _ => decode element) = json.listOf? decode := by
  cases json <;> simp [nestedElements?, listOf?, elements?, traverse_eq]

theorem nested?_eq {α : Type} (decode : Json → Option α) (json : Json) (key : String) :
    json.nested? key (fun element _ => decode element) =
      (json.field? key).bind (listOf? decode) := by
  unfold nested?
  split
  · rename_i value found
    simp [found, nestedElements?_eq]
  · rename_i found
    simp [found]

end Rendition.Json
