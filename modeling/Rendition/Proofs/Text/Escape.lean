/-
# Rendition.Proofs.Text.Escape -- texts read back from their escapes

An escape replaces each character by a word.  If no word is the beginning of
another, the characters are read off the escaped text one after the other, and
texts that are escaped alike are equal (`IsPrefixCode.substitute_injective`).

The escapes write a few reserved characters as words that begin with a reserved
character, and every other character as itself; then only the words of the
reserved characters have to be compared (`isPrefixCode_of_reserved`).

In markup these words are entities: an ampersand and no other reserved character.  So
no reserved character is left but the ampersand, and an ampersand can only stand at
the start of an entity (`WritesEntities.exists_entity`).
-/
import Rendition.Escape

namespace Rendition

set_option autoImplicit false

namespace Text

theorem substitute_singleton (f : Char → String) (c : Char) :
    substitute f (String.singleton c) = f c := by
  simp [substitute]

/-- Two passes over a text are one pass with the second on the words of the first. -/
theorem substitute_substitute (f g : Char → String) (text : String) :
    substitute g (substitute f text) = substitute (fun c => substitute g (f c)) text := by
  apply String.toList_inj.mp
  simp only [toList_substitute, List.flatMap_assoc]

/-- No character is written as nothing, and the word of none is the beginning of that of another. -/
structure IsPrefixCode (f : Char → String) : Prop where
  ne_nil : ∀ c, (f c).toList ≠ []
  eq_of_isPrefix : ∀ c d, (f c).toList <+: (f d).toList → c = d

/-- Words of which none begins another are told apart in any text. -/
theorem IsPrefixCode.eq_of_flatMap_eq {f : Char → String} (code : IsPrefixCode f) :
    ∀ s t : List Char,
      (s.flatMap fun c => (f c).toList) = (t.flatMap fun c => (f c).toList) → s = t
  | [], [], _ => rfl
  | [], d :: t, same => by
      rw [List.flatMap_nil, List.flatMap_cons, eq_comm, List.append_eq_nil_iff] at same
      exact absurd same.1 (code.ne_nil d)
  | c :: s, [], same => by
      rw [List.flatMap_nil, List.flatMap_cons, List.append_eq_nil_iff] at same
      exact absurd same.1 (code.ne_nil c)
  | c :: s, d :: t, same => by
      rw [List.flatMap_cons, List.flatMap_cons] at same
      have first : c = d := by
        have left : (f c).toList <+: (f c).toList ++ s.flatMap fun c => (f c).toList :=
          List.prefix_append _ _
        have right : (f d).toList <+: (f c).toList ++ s.flatMap fun c => (f c).toList :=
          same ▸ List.prefix_append _ _
        rcases List.prefix_or_prefix_of_prefix left right with shorter | longer
        · exact code.eq_of_isPrefix c d shorter
        · exact (code.eq_of_isPrefix d c longer).symm
      subst first
      rw [code.eq_of_flatMap_eq s t (List.append_cancel_left same)]

theorem IsPrefixCode.substitute_injective {f : Char → String} (code : IsPrefixCode f) :
    Function.Injective (substitute f) := by
  intro s t same
  have lists := congrArg String.toList same
  rw [toList_substitute, toList_substitute] at lists
  exact String.toList_inj.mp (code.eq_of_flatMap_eq _ _ lists)

/-- Reserved characters as words that begin with reserved characters, the others as themselves. -/
theorem isPrefixCode_of_reserved {f : Char → String} (reserved : List Char)
    (plain : ∀ c, c ∉ reserved → f c = String.singleton c)
    (marked : reserved.all fun c => (f c).toList.head?.any reserved.contains)
    (apart : reserved.all fun c => reserved.all fun d =>
      !(f c).toList.isPrefixOf (f d).toList || c == d) :
    IsPrefixCode f := by
  have word : ∀ c ∈ reserved, ∃ mark rest, (f c).toList = mark :: rest ∧ mark ∈ reserved := by
    intro c special
    obtain ⟨mark, first, known⟩ :=
      (Option.any_eq_true _ _).mp (List.all_eq_true.mp marked c special)
    obtain ⟨rest, word⟩ := List.head?_eq_some_iff.mp first
    exact ⟨mark, rest, word, List.contains_iff_mem.mp known⟩
  refine ⟨?_, ?_⟩
  · intro c
    by_cases special : c ∈ reserved
    · obtain ⟨mark, rest, word, -⟩ := word c special
      exact word ▸ List.cons_ne_nil mark rest
    · simp [plain c special]
  · intro c d before
    by_cases special : c ∈ reserved <;> by_cases other : d ∈ reserved
    · have each := List.all_eq_true.mp (List.all_eq_true.mp apart c special) d other
      simpa [List.isPrefixOf_iff_prefix.mpr before] using each
    · -- a word cannot begin an ordinary character, for that would be its mark
      obtain ⟨mark, rest, word, known⟩ := word c special
      rw [word, plain d other, String.toList_singleton, List.cons_prefix_cons] at before
      exact absurd (before.1 ▸ known) other
    · obtain ⟨mark, rest, word, known⟩ := word d other
      rw [word, plain c special, String.toList_singleton, List.cons_prefix_cons] at before
      exact absurd (before.1 ▸ known) special
    · rw [plain c special, plain d other, String.toList_singleton, String.toList_singleton,
        List.cons_prefix_cons] at before
      exact before.1

/-- Reserved characters, the ampersand among them, are written as entities, in which no reserved
character stands but an ampersand in front, and the others as themselves. -/
structure WritesEntities (f : Char → String) (reserved : List Char) (entities : List String) :
    Prop where
  plain : ∀ c, c ∉ reserved → f c = String.singleton c
  ampersand : '&' ∈ reserved
  words : reserved.all fun c =>
    entities.contains (f c) && (f c).toList.head? == some '&' &&
      !(f c).toList.tail.any reserved.contains

namespace WritesEntities

variable {f : Char → String} {reserved : List Char} {entities : List String}

/-- A character is written as itself or as an entity. -/
theorem word_cases (writes : WritesEntities f reserved entities) (c : Char) :
    (c ∉ reserved ∧ (f c).toList = [c]) ∨
      ∃ body, f c ∈ entities ∧ (f c).toList = '&' :: body ∧ ∀ d ∈ body, d ∉ reserved := by
  by_cases special : c ∈ reserved
  · have word := List.all_eq_true.mp writes.words c special
    simp only [Bool.and_eq_true, beq_iff_eq, Bool.not_eq_true', List.any_eq_false] at word
    obtain ⟨⟨known, first⟩, others⟩ := word
    obtain ⟨body, same⟩ := List.head?_eq_some_iff.mp first
    rw [same, List.tail_cons] at others
    refine .inr ⟨body, List.contains_iff_mem.mp known, same, fun d inside reserved => ?_⟩
    exact others d inside (List.contains_iff_mem.mpr reserved)
  · exact .inl ⟨special, by rw [writes.plain c special, String.toList_singleton]⟩

/-- No reserved character is left but the ampersand. -/
theorem notMem (writes : WritesEntities f reserved entities) {c : Char} (special : c ∈ reserved)
    (marks : c ≠ '&') (text : String) : c ∉ (substitute f text).toList := by
  rw [toList_substitute, List.mem_flatMap]
  rintro ⟨d, -, inside⟩
  rcases writes.word_cases d with ⟨ordinary, word⟩ | ⟨body, -, word, clean⟩
  · rw [word, List.mem_singleton] at inside
    exact ordinary (inside ▸ special)
  · rw [word, List.mem_cons] at inside
    rcases inside with first | later
    · exact marks first
    · exact clean c later special

/-- An ampersand stands at the start of an entity. -/
theorem exists_entity (writes : WritesEntities f reserved entities) {cs front back : List Char}
    (split : (cs.flatMap fun c => (f c).toList) = front ++ '&' :: back) :
    ∃ entity ∈ entities, entity.toList <+: '&' :: back := by
  induction cs generalizing front with
  | nil => simp at split
  | cons c cs ih =>
      rw [List.flatMap_cons, List.append_eq_append_iff] at split
      rcases split with ⟨after, -, later⟩ | ⟨_ | ⟨mark, after⟩, word, later⟩
      · exact ih later
      · exact @ih [] later.symm
      · -- the ampersand is in the word of this character, so it is its first
        obtain ⟨rfl, rfl⟩ := List.cons.inj later
        rcases writes.word_cases c with ⟨ordinary, single⟩ | ⟨body, known, entity, clean⟩
        · have inside : '&' ∈ [c] := by
            rw [← single, word]
            exact List.mem_append_right front List.mem_cons_self
          exact absurd (List.mem_singleton.mp inside ▸ writes.ampersand) ordinary
        · rw [entity] at word
          cases front with
          | nil => exact ⟨f c, known, entity ▸ word ▸ List.prefix_append _ _⟩
          | cons first front =>
              have inside : '&' ∈ body := by
                rw [(List.cons.inj word).2]
                exact List.mem_append_right front List.mem_cons_self
              exact absurd writes.ampersand (clean '&' inside)

end WritesEntities

end Text

namespace Escape

open Rendition.Text

/-- The characters that HTML reserves in text. -/
def htmlReserved : List Char := ['&', '<', '>', '\x22']

theorem htmlEntity_of_notMem {c : Char} (ordinary : c ∉ htmlReserved) :
    htmlEntity c = String.singleton c := by
  simp only [htmlReserved, List.mem_cons, List.not_mem_nil, or_false, not_or] at ordinary
  simp [htmlEntity, ordinary]

def htmlEntities : List String := ["&amp;", "&lt;", "&gt;", "&quot;"]

theorem writesEntities_html : WritesEntities htmlEntity htmlReserved htmlEntities :=
  ⟨fun _ => htmlEntity_of_notMem, by decide, by decide⟩

/-- Texts that are escaped alike in HTML are equal. -/
theorem html_injective : Function.Injective html :=
  (isPrefixCode_of_reserved htmlReserved (fun _ => htmlEntity_of_notMem) (by decide)
    (by decide)).substitute_injective

/-- The characters that XML reserves, and HTML in attribute values. -/
def xmlReserved : List Char := ['\x27', '&', '<', '>', '\x22']

theorem htmlEntity_of_notMem_xmlReserved {c : Char} (ordinary : c ∉ xmlReserved) :
    c ≠ '\x27' ∧ htmlEntity c = String.singleton c := by
  rw [xmlReserved, List.mem_cons, not_or] at ordinary
  exact ⟨ordinary.1, htmlEntity_of_notMem ordinary.2⟩

theorem xmlEntity_of_notMem {c : Char} (ordinary : c ∉ xmlReserved) :
    xmlEntity c = String.singleton c := by
  obtain ⟨apostrophe, other⟩ := htmlEntity_of_notMem_xmlReserved ordinary
  rw [xmlEntity, if_neg apostrophe, other]

theorem isPrefixCode_xmlEntity : IsPrefixCode xmlEntity :=
  isPrefixCode_of_reserved xmlReserved (fun _ => xmlEntity_of_notMem) (by decide) (by decide)

theorem writesEntities_xml : WritesEntities xmlEntity xmlReserved ("&apos;" :: htmlEntities) :=
  ⟨fun _ => xmlEntity_of_notMem, by decide, by decide⟩

/-- Texts that are escaped alike in XML are equal. -/
theorem xml_injective : Function.Injective xml := isPrefixCode_xmlEntity.substitute_injective

theorem attributeEntity_of_notMem {c : Char} (ordinary : c ∉ xmlReserved) :
    attributeEntity c = String.singleton c := by
  obtain ⟨apostrophe, other⟩ := htmlEntity_of_notMem_xmlReserved ordinary
  rw [attributeEntity, if_neg apostrophe, other]

theorem writesEntities_attributeValue :
    WritesEntities attributeEntity xmlReserved ("&#39;" :: htmlEntities) :=
  ⟨fun _ => attributeEntity_of_notMem, by decide, by decide⟩

/-- Attribute values that are escaped alike in HTML are equal. -/
theorem attributeValue_injective : Function.Injective attributeValue :=
  (isPrefixCode_of_reserved xmlReserved (fun _ => attributeEntity_of_notMem) (by decide)
    (by decide)).substitute_injective

/-- An apostrophe as a number, any other character as itself. -/
def apostropheEntity (c : Char) : String := if c = '\x27' then "&#39;" else String.singleton c

/-- An attribute value is the text in HTML with its apostrophes as numbers. -/
theorem attributeValue_eq (text : String) :
    attributeValue text = substitute apostropheEntity (html text) := by
  have word : attributeEntity = fun c => substitute apostropheEntity (htmlEntity c) := by
    funext c
    by_cases special : c ∈ xmlReserved
    · have all : xmlReserved.all fun c =>
          attributeEntity c == substitute apostropheEntity (htmlEntity c) := by decide
      exact beq_iff_eq.mp (List.all_eq_true.mp all c special)
    · obtain ⟨apostrophe, other⟩ := htmlEntity_of_notMem_xmlReserved special
      rw [attributeEntity_of_notMem special, other, substitute_singleton, apostropheEntity,
        if_neg apostrophe]
  rw [html, substitute_substitute, attributeValue, word]

def latexReserved : List Char := ['\\', '~', '^', '\x7b', '\x7d', '$', '&', '#', '_', '%']

theorem latexCommand_of_notMem {c : Char} (ordinary : c ∉ latexReserved) :
    latexCommand c = String.singleton c := by
  simp only [latexReserved, List.mem_cons, List.not_mem_nil, or_false, not_or] at ordinary
  simp [latexCommand, ordinary]

/-- Texts that are escaped alike in LaTeX are equal. -/
theorem latex_injective : Function.Injective latex :=
  (isPrefixCode_of_reserved latexReserved (fun _ => latexCommand_of_notMem) (by decide)
    (by decide)).substitute_injective

/-- A character of an index entry: escaped, then with its separators quoted. -/
def indexWord (c : Char) : String := substitute indexQuote (latexCommand c)

/-- A level is escaped in one pass over its characters. -/
theorem indexLevel_eq (text : String) : indexLevel text = substitute indexWord text :=
  substitute_substitute latexCommand indexQuote text

/-- The characters that separate the parts of an index entry. -/
def indexSeparators : List Char := ['!', '@', '|', '\x22']

theorem indexQuote_of_notMem {c : Char} (ordinary : c ∉ indexSeparators) :
    indexQuote c = String.singleton c := by
  simp only [indexSeparators, List.mem_cons, List.not_mem_nil, or_false, not_or] at ordinary
  simp [indexQuote, ordinary]

theorem indexWord_of_notMem {c : Char} (ordinary : c ∉ latexReserved ++ indexSeparators) :
    indexWord c = String.singleton c := by
  rw [List.mem_append, not_or] at ordinary
  rw [indexWord, latexCommand_of_notMem ordinary.1, substitute_singleton,
    indexQuote_of_notMem ordinary.2]

/-! ## Reading back -/

/-- An escape from which every text can be read back, piece by piece. -/
structure IsDecodable (escape : String → String) : Prop where
  injective : Function.Injective escape
  append : ∀ s t, escape (s ++ t) = escape s ++ escape t

/-- An escape that leaves none of some characters and no ampersand but in front of an entity. -/
structure LeavesEntities (escape : String → String) (gone : List Char) (entities : List String) :
    Prop where
  notMem : ∀ text, ∀ c ∈ gone, c ∉ (escape text).toList
  exists_entity : ∀ text front back, (escape text).toList = front ++ '&' :: back →
    ∃ entity ∈ entities, entity.toList <+: '&' :: back

theorem leavesEntities_substitute {f : Char → String} {reserved gone : List Char}
    {entities : List String} (writes : WritesEntities f reserved entities)
    (known : gone.all fun c => reserved.contains c && c != '&') :
    LeavesEntities (substitute f) gone entities where
  notMem text c inside := by
    have both := List.all_eq_true.mp known c inside
    rw [Bool.and_eq_true, List.contains_iff_mem, bne_iff_ne] at both
    exact writes.notMem both.1 both.2 text
  exists_entity text front back split := by
    rw [toList_substitute] at split
    exact writes.exists_entity split

/-- **Escapes are uniquely decodable.**  In each format texts that are escaped alike are equal, and
the escape of a concatenation is the concatenation of the escapes.  An attribute value is HTML text
whose apostrophes are replaced in turn.  Markup holds no angle bracket and no double quote, in
attribute values and in XML no apostrophe either, and an ampersand only in front of an entity. -/
theorem escapes_decodable :
    (IsDecodable html ∧ IsDecodable attributeValue ∧ IsDecodable xml ∧ IsDecodable latex) ∧
      (∀ text, attributeValue text = substitute apostropheEntity (html text)) ∧
      LeavesEntities html ['<', '>', '\x22'] ["&amp;", "&lt;", "&gt;", "&quot;"] ∧
      LeavesEntities attributeValue ['<', '>', '\x22', '\x27']
        ["&#39;", "&amp;", "&lt;", "&gt;", "&quot;"] ∧
      LeavesEntities xml ['<', '>', '\x22', '\x27']
        ["&apos;", "&amp;", "&lt;", "&gt;", "&quot;"] := by
  refine ⟨⟨?_, ?_, ?_, ?_⟩, attributeValue_eq, ?_, ?_, ?_⟩
  · exact ⟨html_injective, substitute_append htmlEntity⟩
  · exact ⟨attributeValue_injective, substitute_append attributeEntity⟩
  · exact ⟨xml_injective, substitute_append xmlEntity⟩
  · exact ⟨latex_injective, substitute_append latexCommand⟩
  · exact leavesEntities_substitute writesEntities_html (by decide)
  · exact leavesEntities_substitute writesEntities_attributeValue (by decide)
  · exact leavesEntities_substitute writesEntities_xml (by decide)

end Escape

end Rendition
