/-
# Rendition.Proofs.Markup.Attributes -- the attributes in a text of markup

`attributes` reads the attributes of all tags in a text, in their order, as a
browser does with values in double quotes: a tag begins at an angle bracket, a
word in it ends at a blank, and quotes hold a value in which brackets mean
nothing.

A text *carries* attributes if it gives these and ends outside of all tags, so
that whatever follows is read on its own (`Carries.append`).  Literal text
carries none, and an element carries its own attributes and those of its content
(`carries_element`).
-/
import Rendition.Proofs.Markup.Fragment

namespace Rendition.Markup

set_option autoImplicit false

/-! ## Reading -/

/-- Where a character stands: between tags, in a tag after the beginning of a word, or in the value
of an attribute after its beginning.  Words and values are kept in reverse. -/
inductive Cursor where
  | text
  | tag (word : List Char)
  | value (name read : List Char)

/-- Where the character after a character stands.  The sign between a name and its value is
skipped. -/
def Cursor.next : Cursor → Char → Cursor
  | .text, c => if c = '<' then .tag [] else .text
  | .tag word, c =>
      if c = '>' then .text
      else if c = '\x22' then .value word []
      else if c = ' ' then .tag []
      else if c = '=' then .tag word
      else .tag (c :: word)
  | .value name read, c => if c = '\x22' then .tag [] else .value name (c :: read)

/-- The attribute that ends at a character. -/
def Cursor.ended : Cursor → Char → List TagAttribute
  | .value name read, c =>
      if c = '\x22' then [(String.ofList name.reverse, String.ofList read.reverse)] else []
  | .text, _ | .tag _, _ => []

/-- The attributes that are read from a place on, and the place at the end. -/
def readAttributes : Cursor → List Char → List TagAttribute × Cursor
  | cursor, [] => ([], cursor)
  | cursor, c :: cs =>
      let (others, last) := readAttributes (cursor.next c) cs
      (cursor.ended c ++ others, last)

/-- The attributes of all tags in a text. -/
def attributes (text : String) : List TagAttribute := (readAttributes .text text.toList).1

/-! ## Stretches -/

/-- A stretch of text that leads from one place to another and gives these attributes. -/
def Leads (start : Cursor) (stretch : List Char) (listed : List TagAttribute) (stop : Cursor) :
    Prop :=
  readAttributes start stretch = (listed, stop)

namespace Leads

theorem nil (cursor : Cursor) : Leads cursor [] [] cursor := rfl

/-- Two stretches lead on from each other, and their attributes follow each other. -/
theorem append {start middle stop : Cursor} {first second : List Char}
    {listed others : List TagAttribute} (left : Leads start first listed middle)
    (right : Leads middle second others stop) :
    Leads start (first ++ second) (listed ++ others) stop := by
  unfold Leads at left right ⊢
  induction first generalizing start listed with
  | nil =>
      obtain ⟨rfl, rfl⟩ := Prod.mk.inj left
      exact right
  | cons c cs ih =>
      simp only [readAttributes, Prod.mk.injEq] at left
      obtain ⟨rfl, last⟩ := left
      have rest := ih (Prod.ext rfl last)
      simp only [List.cons_append, readAttributes, rest, List.append_assoc]

/-- One character that ends no attribute. -/
theorem cons {start stop : Cursor} {c : Char} {rest : List Char} {listed : List TagAttribute}
    (inside : start.ended c = []) (others : Leads (start.next c) rest listed stop) :
    Leads start (c :: rest) listed stop := by
  unfold Leads at others ⊢
  simp only [readAttributes, others, inside, List.nil_append]

end Leads

/-- Between tags nothing is read before the next one. -/
theorem leads_text {stretch : List Char} (plain : '<' ∉ stretch) :
    Leads .text stretch [] .text := by
  induction stretch with
  | nil => exact .nil _
  | cons c cs ih =>
      obtain ⟨first, others⟩ := not_or.mp (mt List.mem_cons.mpr plain)
      have stays : Cursor.next .text c = .text := if_neg (Ne.symm first)
      have after : Leads (Cursor.next .text c) cs [] .text := by
        rw [stays]
        exact ih others
      exact .cons rfl after

/-- Whether a character may stand in a name. -/
def isNameChar (c : Char) : Bool := c.isAlphanum ∨ c = '-' ∨ c = ':'

theorem next_tag_of_name {c : Char} (named : isNameChar c) (word : List Char) :
    Cursor.next (.tag word) c = .tag (c :: word) := by
  have differs : ∀ reserved : Char, isNameChar reserved = false → c ≠ reserved := by
    rintro reserved other rfl
    exact Bool.false_ne_true (other.symm.trans named)
  rw [Cursor.next, if_neg (differs _ (by decide)), if_neg (differs _ (by decide)),
    if_neg (differs _ (by decide)), if_neg (differs _ (by decide))]

/-- A name in a tag is kept and gives no attribute. -/
theorem leads_name {name : String} (named : isName name) (word : List Char) :
    Leads (.tag word) name.toList [] (.tag (name.toList.reverse ++ word)) := by
  have each : ∀ c ∈ name.toList, isNameChar c := by
    simp only [isName, decide_eq_true_eq, List.all_eq_true] at named
    simpa only [isNameChar, decide_eq_true_eq] using named.2
  generalize name.toList = cs at each
  induction cs generalizing word with
  | nil => exact .nil _
  | cons c cs ih =>
      have others := ih (c :: word) fun d inside => each d (List.mem_cons_of_mem _ inside)
      have step := next_tag_of_name (each c List.mem_cons_self) word
      rw [List.reverse_cons, List.append_assoc]
      exact .cons rfl (step ▸ others)

/-- A value without a quote is kept up to the quote that ends it. -/
theorem leads_value {stretch : List Char} (quoted : '\x22' ∉ stretch) (name value : List Char) :
    Leads (.value name value) stretch [] (.value name (stretch.reverse ++ value)) := by
  induction stretch generalizing value with
  | nil => exact .nil _
  | cons c cs ih =>
      obtain ⟨first, others⟩ := not_or.mp (mt List.mem_cons.mpr quoted)
      have inside : Cursor.ended (.value name value) c = [] := if_neg (Ne.symm first)
      have step : Cursor.next (.value name value) c = .value name (c :: value) :=
        if_neg (Ne.symm first)
      rw [List.reverse_cons, List.append_assoc]
      exact .cons inside (step ▸ ih others (c :: value))

/-! ## Tags -/

/-- An attribute that is written as such: under a name, with a value that has no quote. -/
def Quotable (entry : TagAttribute) : Prop := isName entry.1 ∧ '\x22' ∉ entry.2.toList

instance : DecidablePred Quotable := fun _ => inferInstanceAs (Decidable (_ ∧ _))

/-- The attributes of a tag are read as they were written. -/
theorem leads_attributesText {listed : List TagAttribute}
    (quotable : ∀ entry ∈ listed, Quotable entry) (word : List Char) :
    ∃ last, Leads (.tag word) (attributesText listed).toList listed (.tag last) := by
  induction listed generalizing word with
  | nil => exact ⟨word, .nil _⟩
  | cons entry rest ih =>
      obtain ⟨name, value⟩ := entry
      obtain ⟨⟨named, quoted⟩, others⟩ := List.forall_mem_cons.mp quotable
      obtain ⟨last, after⟩ := ih others []
      refine ⟨last, ?_⟩
      have blank : Leads (.tag word) [' '] [] (.tag []) := rfl
      have opened : Leads (.tag (name.toList.reverse ++ [])) ['=', '\x22'] []
          (.value (name.toList.reverse ++ []) []) := rfl
      have closed : Leads (.value (name.toList.reverse ++ []) (value.toList.reverse ++ [])) ['\x22']
          [(name, value)] (.tag []) := by
        simp [Leads, readAttributes, Cursor.ended, Cursor.next]
      have whole := ((((blank.append (leads_name named [])).append opened).append
        (leads_value quoted _ [])).append closed).append after
      simpa [attributesText, String.toList_append] using whole

/-- A text that gives these attributes and ends outside of all tags. -/
def Carries (text : String) (listed : List TagAttribute) : Prop :=
  Leads .text text.toList listed .text

theorem Carries.attributes_eq {text : String} {listed : List TagAttribute}
    (carries : Carries text listed) : attributes text = listed :=
  congrArg Prod.fst carries

theorem Carries.append {first second : String} {listed others : List TagAttribute}
    (left : Carries first listed) (right : Carries second others) :
    Carries (first ++ second) (listed ++ others) := by
  unfold Carries
  rw [String.toList_append]
  exact Leads.append left right

theorem carries_empty : Carries "" [] := rfl

/-- Literal text carries no attributes. -/
theorem carries_literal {format : TagFormat} {body : String}
    (literal : Literal format isTextChar body) : Carries body [] := by
  refine leads_text ?_
  induction literal with
  | empty => exact List.not_mem_nil
  | char allowed _ ih =>
      rw [String.toList_append, String.toList_singleton, List.mem_append, List.mem_singleton,
        not_or]
      exact ⟨Ne.symm (isTextChar_iff.mp allowed).1, ih⟩
  | @reference name _ known _ ih =>
      have entity : ∀ name ∈ format.references, '<' ∉ ("&" ++ name ++ ";").toList := by
        cases format <;> decide
      rw [String.toList_append, List.mem_append, not_or]
      exact ⟨entity name known, ih⟩

/-- An opening tag gives the attributes it is written with. -/
theorem carries_openTag {name : String} {listed : List TagAttribute} (named : isName name)
    (quotable : ∀ entry ∈ listed, Quotable entry) :
    Carries (openTag name listed) listed := by
  obtain ⟨last, within⟩ := leads_attributesText quotable (name.toList.reverse ++ [])
  have opened : Leads .text ['<'] [] (.tag []) := rfl
  have closed : Leads (.tag last) ['>'] [] .text := rfl
  have whole := ((opened.append (leads_name named [])).append within).append closed
  simpa [Carries, openTag, String.toList_append] using whole

/-- A closing tag gives no attribute. -/
theorem carries_closeTag {name : String} (named : isName name) : Carries (closeTag name) [] := by
  have opened : Leads .text ['<', '/'] [] (.tag ['/']) := rfl
  have closed : ∀ word, Leads (.tag word) ['>'] [] .text := fun _ => rfl
  have whole := (opened.append (leads_name named ['/'])).append (closed _)
  simpa [Carries, closeTag, String.toList_append] using whole

/-- **An element carries its own attributes and those of its content.** -/
theorem carries_element {name content : String} {own listed : List TagAttribute}
    (named : isName name) (quotable : ∀ entry ∈ own, Quotable entry)
    (inner : Carries content listed) : Carries (element name own content) (own ++ listed) := by
  have whole := ((carries_openTag named quotable).append inner).append (carries_closeTag named)
  rwa [List.append_nil] at whole

end Rendition.Markup
