/-
# Rendition.Proofs.Text.Token -- texts in which a mark quotes the next character

In LaTeX a backslash and the character after it are one token, and in an index entry a
double quote and the character after it.  `tokens` reads a text from left to right in
this way; the characters that no mark quotes are its bare characters.

A text is *whole* if no mark in it is bare, that is, if the text does not end in a
mark that is left to quote what follows.  What follows a whole text is read on its
own (`tokens_append`).
-/
import Mathlib.Tactic.SplitIfs

namespace Rendition.Text

set_option autoImplicit false

/-- A character with a mark in front of it, or one without. -/
inductive Token where
  | quoted (c : Char)
  | bare (c : Char)
  deriving DecidableEq

namespace Token

def char : Token → Char
  | .quoted c | .bare c => c

/-- The character of a token that no mark quotes. -/
def bare? : Token → Option Char
  | .quoted _ => none
  | .bare c => some c

def text (mark : Char) : Token → List Char
  | .quoted c => [mark, c]
  | .bare c => [c]

end Token

/-- The tokens of a text.  A mark at the end has no character to quote. -/
def tokens (mark : Char) : List Char → List Token
  | [] => []
  | [c] => [.bare c]
  | c :: d :: cs =>
      if c = mark then .quoted d :: tokens mark cs else .bare c :: tokens mark (d :: cs)

/-- The characters of a text that no mark quotes. -/
def bareChars (mark : Char) (cs : List Char) : List Char := (tokens mark cs).filterMap Token.bare?

/-- Whether a text leaves no mark without a character to quote. -/
def IsWhole (mark : Char) (cs : List Char) : Prop := .bare mark ∉ tokens mark cs

instance (mark : Char) (cs : List Char) : Decidable (IsWhole mark cs) :=
  inferInstanceAs (Decidable (_ ∉ _))

variable {mark c : Char} {cs ds : List Char}

/-- The characters that no mark quotes are those of the bare tokens. -/
theorem mem_bareChars_iff : c ∈ bareChars mark cs ↔ .bare c ∈ tokens mark cs := by
  rw [bareChars, List.mem_filterMap]
  constructor
  · rintro ⟨token, inside, same⟩
    cases token with
    | quoted d => exact absurd same (by simp [Token.bare?])
    | bare d =>
        obtain rfl : d = c := by simpa [Token.bare?] using same
        exact inside
  · exact fun inside => ⟨.bare c, inside, rfl⟩

theorem tokens_mark (mark c : Char) (cs : List Char) :
    tokens mark (mark :: c :: cs) = .quoted c :: tokens mark cs := by
  rw [tokens, if_pos rfl]

theorem tokens_cons (plain : c ≠ mark) (cs : List Char) :
    tokens mark (c :: cs) = .bare c :: tokens mark cs := by
  cases cs with
  | nil => rfl
  | cons d cs => rw [tokens, if_neg plain]

/-- Text without marks is read character by character. -/
theorem tokens_append_of_notMem (plain : mark ∉ cs) (ds : List Char) :
    tokens mark (cs ++ ds) = cs.map .bare ++ tokens mark ds := by
  induction cs with
  | nil => rfl
  | cons c cs ih =>
      rw [List.mem_cons, not_or] at plain
      rw [List.cons_append, tokens_cons (Ne.symm plain.1), ih plain.2, List.map_cons,
        List.cons_append]

/-- Nothing is lost in reading. -/
theorem flatMap_text_tokens (mark : Char) (cs : List Char) :
    (tokens mark cs).flatMap (Token.text mark) = cs := by
  fun_induction tokens mark cs with
  | case1 => rfl
  | case2 => rfl
  | case3 d cs ih => rw [List.flatMap_cons, ih]; rfl
  | case4 c d cs other ih => rw [List.flatMap_cons, ih]; rfl

/-- What follows a whole text is read on its own. -/
theorem tokens_append (whole : IsWhole mark cs) (ds : List Char) :
    tokens mark (cs ++ ds) = tokens mark cs ++ tokens mark ds := by
  unfold IsWhole at whole
  fun_induction tokens mark cs with
  | case1 => rfl
  | case2 c =>
      have plain : c ≠ mark := by simpa [eq_comm] using whole
      exact tokens_cons plain ds
  | case3 d cs ih =>
      rw [List.mem_cons, not_or] at whole
      rw [List.cons_append, List.cons_append, tokens_mark, ih whole.2, List.cons_append]
  | case4 c d cs other ih =>
      rw [List.mem_cons, not_or] at whole
      rw [List.cons_append, tokens_cons other, ih whole.2, List.cons_append]

/-- A text that leaves no mark open does not quote what follows. -/
theorem bareChars_append (whole : IsWhole mark cs) (ds : List Char) :
    bareChars mark (cs ++ ds) = bareChars mark cs ++ bareChars mark ds := by
  rw [bareChars, tokens_append whole, List.filterMap_append]
  rfl

/-- Tokens are read back from the text they are written as. -/
theorem tokens_flatMap_text {read : List Token} (whole : .bare mark ∉ read) :
    tokens mark (read.flatMap (Token.text mark)) = read := by
  induction read with
  | nil => rfl
  | cons token read ih =>
      rw [List.mem_cons, not_or] at whole
      rw [List.flatMap_cons]
      cases token with
      | quoted c => exact (tokens_mark mark c _).trans (congrArg _ (ih whole.2))
      | bare c =>
          have plain : c ≠ mark := fun same => whole.1 (by rw [same])
          exact (tokens_cons plain _).trans (congrArg _ (ih whole.2))

/-- A mark is bare at the end of a text only. -/
theorem bare_notMem_of_tokens_eq {read : List Token} {token : Token} {rest : List Token}
    (split : tokens mark cs = read ++ token :: rest) : .bare mark ∉ read := by
  fun_induction tokens mark cs generalizing read with
  | case1 => simp at split
  | case2 c =>
      have nothing : read = [] := by
        cases read with
        | nil => rfl
        | cons first read => simp at split
      simp [nothing]
  | case3 d cs ih =>
      cases read with
      | nil => simp
      | cons first read =>
          rw [List.cons_append, List.cons.injEq] at split
          obtain ⟨rfl, others⟩ := split
          simpa using ih others
  | case4 c d cs other ih =>
      cases read with
      | nil => simp
      | cons first read =>
          rw [List.cons_append, List.cons.injEq] at split
          obtain ⟨rfl, others⟩ := split
          rw [List.mem_cons, not_or]
          exact ⟨by simpa [eq_comm] using other, ih others⟩

end Rendition.Text
