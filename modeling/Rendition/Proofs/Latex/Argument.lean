/-
# Rendition.Proofs.Latex.Argument -- where the argument of a command ends

LaTeX reads a backslash and the character after it as one token.  An argument in
braces ends at the first closing brace that no brace inside it has opened, and an
argument in brackets at the first closing bracket outside of all braces
(`argument?`).  A text *fits* between delimiters if the argument it is written as ends
where the writer closes it, and this is so exactly if it leaves no backslash open, its
braces match and the closing delimiter does not stand outside of them
(`firstArgument?_eq_some_iff`).

An address is written with its percent and number signs escaped and all else as it is.
So it fits exactly if the address itself does (`fits_latexAddress_iff`), and the
arguments of links, references and images end where they are closed for these addresses
only (`addresses_end_iff`).
-/
import Rendition.Markup.Latex
import Rendition.Proofs.Text.Balance
import Rendition.Proofs.Text.Token

namespace Rendition.Latex

set_option autoImplicit false

open Rendition.Text

/-! ## Reading -/

/-- What stands around an argument. -/
inductive Delimiter where
  | braces
  | brackets

namespace Delimiter

def opener : Delimiter → Char
  | .braces => '\x7b'
  | .brackets => '['

def closer : Delimiter → Char
  | .braces => '\x7d'
  | .brackets => ']'

def ofOpener? (c : Char) : Option Delimiter :=
  if c = '\x7b' then some .braces else if c = '[' then some .brackets else none

def around : Delimiter → String → String
  | .braces => braced
  | .brackets => bracketed

theorem toList_around (delimiter : Delimiter) (argument : String) :
    (delimiter.around argument).toList =
      delimiter.opener :: (argument.toList ++ [delimiter.closer]) := by
  cases delimiter <;> simp [around, braced, bracketed, opener, closer]

theorem ofOpener?_opener (delimiter : Delimiter) : ofOpener? delimiter.opener = some delimiter := by
  cases delimiter <;> rfl

theorem closer_ne_backslash (delimiter : Delimiter) : delimiter.closer ≠ '\\' := by
  cases delimiter <;> decide

theorem closer_ne_openingBrace (delimiter : Delimiter) : delimiter.closer ≠ '\x7b' := by
  cases delimiter <;> decide

end Delimiter

/-- How many braces are open after a token; none if it closes one that is not open. -/
def depthAfter? (depth : Nat) : Token → Option Nat
  | .quoted _ => some depth
  | .bare c =>
      if c = '\x7b' then some (depth + 1)
      else if c = '\x7d' then (if depth = 0 then none else some (depth - 1))
      else some depth

/-- The tokens up to a closing delimiter outside of all braces, and those after it. -/
def argument? (closer : Char) : Nat → List Token → Option (List Token × List Token)
  | _, [] => none
  | depth, token :: rest =>
      if token = .bare closer ∧ depth = 0 then some ([], rest)
      else (depthAfter? depth token).bind fun after =>
        (argument? closer after rest).map fun (read, others) => (token :: read, others)

/-- Whether a token is a letter, as in the name of a command. -/
def isLetter : Token → Bool
  | .quoted _ => false
  | .bare c => c.isAlpha

def written (read : List Token) : String := String.ofList (read.flatMap (Token.text '\\'))

/-- The first argument of a command at the beginning of a text, and what follows the argument. -/
def firstArgument? (markup : String) : Option (String × String) :=
  match tokens '\\' markup.toList with
  | .quoted _ :: rest =>
      match rest.dropWhile isLetter with
      | .bare c :: rest =>
          (Delimiter.ofOpener? c).bind fun delimiter =>
            (argument? delimiter.closer 0 rest).map (Prod.map written written)
      | _ => none
  | _ => none

/-! ## Texts that fit -/

def outside : Nat → List Char → List Char
  | _, [] => []
  | depth, c :: cs =>
      if c = '\x7b' then outside (depth + 1) cs
      else if c = '\x7d' then outside (depth - 1) cs
      else if depth = 0 then c :: outside depth cs
      else outside depth cs

/-- What the tokens of an argument must be like for it not to end among them. -/
def Holds (closer : Char) (depth : Nat) (read : List Token) : Prop :=
  closesAll '\x7b' '\x7d' depth (read.filterMap Token.bare?) ∧
    closer ∉ outside depth (read.filterMap Token.bare?)

/-- A text that stays within its delimiters: every backslash has a character after it, the braces
match, and the closing delimiter does not stand outside of them. -/
structure Delimiter.Fits (delimiter : Delimiter) (text : String) : Prop where
  whole : IsWhole '\\' text.toList
  holds : Holds delimiter.closer 0 (tokens '\\' text.toList)

variable {closer : Char}

/-- No closing brace stands outside of all braces: there it would close one. -/
theorem closingBrace_notMem_outside (depth : Nat) (cs : List Char) :
    '\x7d' ∉ outside depth cs := by
  induction cs generalizing depth with
  | nil => exact List.not_mem_nil
  | cons c cs ih =>
      rw [outside]
      split_ifs with opens closes
      · exact ih _
      · exact ih _
      · simpa [eq_comm, closes] using ih _
      · exact ih _

/-- In braces it is enough that the braces match. -/
theorem fits_braces_iff (text : String) :
    Delimiter.braces.Fits text ↔
      IsWhole '\\' text.toList ∧
        isBalanced '\x7b' '\x7d' (bareChars '\\' text.toList) := by
  constructor
  · exact fun fits => ⟨fits.whole, fits.holds.1⟩
  · exact fun both => ⟨both.1, both.2, closingBrace_notMem_outside 0 _⟩

theorem holds_nil_iff (closer : Char) (depth : Nat) : Holds closer depth [] ↔ depth = 0 := by
  simp [Holds, closesAll, outside]

/-- One more token in front: it must not be the end, and the rest is read at the depth after it. -/
theorem holds_cons_iff (other : closer ≠ '\x7b') (depth : Nat) (token : Token)
    (read : List Token) :
    Holds closer depth (token :: read) ↔
      ¬(token = .bare closer ∧ depth = 0) ∧
        ∃ after, depthAfter? depth token = some after ∧ Holds closer after read := by
  cases token with
  | quoted c =>
      have skipped : (Token.quoted c :: read).filterMap Token.bare? = read.filterMap Token.bare? :=
        rfl
      simp [Holds, depthAfter?, skipped]
  | bare c =>
      have pair : (Token.bare c :: read).filterMap Token.bare? = c :: read.filterMap Token.bare? :=
        rfl
      unfold Holds
      rw [pair, closesAll, outside, depthAfter?, Token.bare.injEq]
      split_ifs with opens closes bottom level
      · simp [opens, Ne.symm other]
      · simp [bottom]
      · simp [bottom, Nat.pos_of_ne_zero bottom]
      · have swap : closer = c ↔ c = closer := eq_comm
        simp only [level, List.mem_cons, not_or, swap, and_true, Option.some.injEq,
          exists_eq_left']
        exact and_left_comm
      · simp [level]

/-- Reading begins with the end of the argument or with a token of it. -/
theorem argument?_cons_eq_some_iff {depth : Nat} {token : Token} {stretch read rest : List Token} :
    argument? closer depth (token :: stretch) = some (read, rest) ↔
      (token = .bare closer ∧ depth = 0) ∧ read = [] ∧ rest = stretch ∨
        ¬(token = .bare closer ∧ depth = 0) ∧
          ∃ after, depthAfter? depth token = some after ∧
            ∃ inner, argument? closer after stretch = some (inner, rest) ∧
              read = token :: inner := by
  rw [argument?]
  split_ifs with last
  · simp [last, eq_comm]
  · simp only [Option.bind_eq_some_iff, Option.map_eq_some_iff, Prod.exists, Prod.mk.injEq, last,
      false_and, not_false_eq_true, true_and, false_or]
    constructor
    · rintro ⟨after, deeper, inner, others, found, rfl, rfl⟩
      exact ⟨after, deeper, inner, found, rfl⟩
    · rintro ⟨after, deeper, inner, found, rfl⟩
      exact ⟨after, deeper, inner, rest, found, rfl, rfl⟩

/-- **An argument is read as it holds.**  What is read before the closing delimiter is the stretch
of tokens in front of it that holds. -/
theorem argument?_eq_some_iff (other : closer ≠ '\x7b') {depth : Nat}
    {stretch read rest : List Token} :
    argument? closer depth stretch = some (read, rest) ↔
      stretch = read ++ .bare closer :: rest ∧ Holds closer depth read := by
  induction stretch generalizing depth read with
  | nil => simp [argument?]
  | cons token stretch ih =>
      rw [argument?_cons_eq_some_iff]
      cases read with
      | nil =>
          rw [holds_nil_iff, List.nil_append, List.cons.injEq, eq_comm (a := rest)]
          simp [and_right_comm]
      | cons first read =>
          rw [holds_cons_iff other, List.cons_append, List.cons.injEq]
          simp only [ih, List.cons.injEq, reduceCtorEq, false_and, and_false, false_or]
          constructor
          · rintro ⟨within, after, deeper, inner, ⟨split, holds⟩, rfl, rfl⟩
            exact ⟨⟨rfl, split⟩, within, after, deeper, holds⟩
          · rintro ⟨⟨rfl, split⟩, within, after, deeper, holds⟩
            exact ⟨within, after, deeper, read, ⟨split, holds⟩, rfl, rfl⟩

/-! ## Commands -/

/-- Whether a name may stand behind the backslash of a command. -/
def isCommandName (name : String) : Bool := !name.isEmpty && name.toList.all Char.isAlpha

variable (delimiter : Delimiter)

theorem written_tokens (text : String) : written (tokens '\\' text.toList) = text := by
  rw [written, flatMap_text_tokens, String.ofList_toList]

/-- Behind the name of a command its argument is read from the opening delimiter on. -/
theorem firstArgument?_command {name : String} (named : isCommandName name)
    (argument after : String) :
    firstArgument? ("\\" ++ name ++ delimiter.around argument ++ after) =
      (argument? delimiter.closer 0
        (tokens '\\' (argument.toList ++ delimiter.closer :: after.toList))).map
          (Prod.map written written) := by
  rw [isCommandName, Bool.and_eq_true, Bool.not_eq_true', List.all_eq_true] at named
  obtain ⟨nonempty, letters⟩ := named
  cases spelled : name.toList with
  | nil => simp_all
  | cons first others =>
      rw [spelled] at letters
      have plain : '\\' ∉ others := by
        intro inside
        have letter := letters '\\' (List.mem_cons_of_mem _ inside)
        exact absurd letter (by decide)
      have opening : delimiter.opener ≠ '\\' ∧ isLetter (.bare delimiter.opener) = false := by
        cases delimiter <;> decide
      have skipped : ∀ token ∈ others.map Token.bare, isLetter token := by
        rw [List.forall_mem_map]
        exact fun c inside => letters c (List.mem_cons_of_mem _ inside)
      have stretch : ("\\" ++ name ++ delimiter.around argument ++ after).toList =
          '\\' :: first :: (others ++
            delimiter.opener :: (argument.toList ++ delimiter.closer :: after.toList)) := by
        simp [spelled, Delimiter.toList_around]
      rw [firstArgument?, stretch, tokens_mark, tokens_append_of_notMem plain,
        tokens_cons opening.1]
      simp only [List.dropWhile_append_of_pos skipped,
        List.dropWhile_cons_of_neg (by simp [opening.2] : ¬isLetter (.bare delimiter.opener)),
        Delimiter.ofOpener?_opener, Option.bind_some]

/-- **An argument ends where it is closed exactly if it fits.** -/
theorem firstArgument?_eq_some_iff {name : String} (named : isCommandName name)
    (argument after : String) :
    firstArgument? ("\\" ++ name ++ delimiter.around argument ++ after) = some (argument, after) ↔
      delimiter.Fits argument := by
  have other := delimiter.closer_ne_openingBrace
  rw [firstArgument?_command delimiter named]
  constructor
  · intro found
    obtain ⟨⟨read, others⟩, found, same⟩ := Option.map_eq_some_iff.mp found
    obtain ⟨split, holds⟩ := (argument?_eq_some_iff other).mp found
    have whole : .bare '\\' ∉ read := bare_notMem_of_tokens_eq split
    have reread : tokens '\\' argument.toList = read := by
      rw [← (Prod.mk.inj same).1, written, String.toList_ofList, tokens_flatMap_text whole]
    exact ⟨by rwa [IsWhole, reread], by rwa [reread]⟩
  · intro fits
    have stretch : tokens '\\' (argument.toList ++ delimiter.closer :: after.toList) =
        tokens '\\' argument.toList ++ .bare delimiter.closer :: tokens '\\' after.toList := by
      rw [tokens_append fits.whole, tokens_cons delimiter.closer_ne_backslash]
    rw [(argument?_eq_some_iff other).mpr ⟨stretch, fits.holds⟩, Option.map_some,
      Prod.map_apply, written_tokens, written_tokens]

/-! ## Addresses -/

def isEscapedInAddress (c : Char) : Bool := c = '%' ∨ c = '#'

theorem ne_backslash_of_isEscapedInAddress {c : Char} (escaped : isEscapedInAddress c) :
    c ≠ '\\' := by
  rintro rfl
  exact absurd escaped (by decide)

/-- The tokens of an address for a token of the address as it was given.  The escape of a character
that was quoted already quotes the backslash in front of it instead. -/
def addressTokens : Token → List Token
  | .quoted c => if isEscapedInAddress c then [.quoted '\\', .bare c] else [.quoted c]
  | .bare c => if isEscapedInAddress c then [.quoted c] else [.bare c]

theorem toList_addressCommand (c : Char) :
    (Escape.addressCommand c).toList = if isEscapedInAddress c then ['\\', c] else [c] := by
  unfold Escape.addressCommand isEscapedInAddress
  split_ifs <;> simp_all

/-- An address is escaped token by token. -/
theorem tokens_latexAddress (target : String) :
    tokens '\\' (Escape.latexAddress target).toList =
      (tokens '\\' target.toList).flatMap addressTokens := by
  rw [Escape.latexAddress, toList_substitute]
  simp only [toList_addressCommand]
  generalize target.toList = cs
  have itself : isEscapedInAddress '\\' = false := by decide
  fun_induction tokens '\\' cs with
  | case1 => rfl
  | case2 c =>
      by_cases escaped : isEscapedInAddress c <;> simp [addressTokens, escaped, tokens]
  | case3 d cs ih =>
      rw [List.flatMap_cons, List.flatMap_cons, List.flatMap_cons, ← ih, itself]
      by_cases escaped : isEscapedInAddress d
      · have other := ne_backslash_of_isEscapedInAddress escaped
        simp [addressTokens, escaped, tokens_mark, tokens_cons other]
      · simp [addressTokens, escaped, tokens_mark]
  | case4 c d cs other ih =>
      have front : (Token.bare c :: tokens '\\' (d :: cs)).flatMap addressTokens =
          addressTokens (.bare c) ++ (tokens '\\' (d :: cs)).flatMap addressTokens :=
        List.flatMap_cons
      rw [front, ← ih]
      by_cases escaped : isEscapedInAddress c
      · simp [addressTokens, escaped, tokens_mark]
      · simp [addressTokens, escaped, tokens_cons other]

/-- A token that neither opens nor closes anything. -/
theorem holds_cons_of_neutral (other : closer ≠ '\x7b') {token : Token}
    (neutral : ∀ depth, depthAfter? depth token = some depth) (inner : token ≠ .bare closer)
    (depth : Nat) (read : List Token) :
    Holds closer depth (token :: read) ↔ Holds closer depth read := by
  simp [holds_cons_iff other, neutral, inner]

/-- Escaping an address neither opens nor closes a brace. -/
theorem holds_addressTokens_iff (depth : Nat) (read : List Token) :
    Holds delimiter.closer depth (read.flatMap addressTokens) ↔
      Holds delimiter.closer depth read := by
  have other := delimiter.closer_ne_openingBrace
  have quoted : ∀ (c : Char) (depth : Nat) (read : List Token),
      Holds delimiter.closer depth (.quoted c :: read) ↔ Holds delimiter.closer depth read :=
    fun c => holds_cons_of_neutral other (fun _ => rfl) (by simp)
  have escape : ∀ {c : Char}, isEscapedInAddress c → ∀ (depth : Nat) (read : List Token),
      Holds delimiter.closer depth (.bare c :: read) ↔ Holds delimiter.closer depth read := by
    intro c escaped
    have sign : c = '%' ∨ c = '#' := by simpa [isEscapedInAddress] using escaped
    refine holds_cons_of_neutral other ?_ ?_
    · rcases sign with rfl | rfl <;> exact fun _ => rfl
    · rcases sign with rfl | rfl <;> cases delimiter <;> decide
  induction read generalizing depth with
  | nil => rfl
  | cons token read ih =>
      rw [List.flatMap_cons]
      cases token with
      | quoted c =>
          by_cases escaped : isEscapedInAddress c
          · simp [addressTokens, escaped, quoted, escape escaped, ih]
          · simp [addressTokens, escaped, quoted, ih]
      | bare c =>
          by_cases escaped : isEscapedInAddress c
          · simp [addressTokens, escaped, quoted, escape escaped, ih]
          · simp [addressTokens, escaped, holds_cons_iff other, ih]

/-- An escaped address ends in half a token if and only if the address does. -/
theorem isWhole_latexAddress_iff (target : String) :
    IsWhole '\\' (Escape.latexAddress target).toList ↔ IsWhole '\\' target.toList := by
  have itself : ∀ token, .bare '\\' ∈ addressTokens token ↔ token = .bare '\\' := by
    intro token
    cases token with
    | quoted c | bare c =>
        by_cases escaped : isEscapedInAddress c
        · have other := ne_backslash_of_isEscapedInAddress escaped
          simp [addressTokens, escaped, other, other.symm]
        · simp [addressTokens, escaped, eq_comm]
  rw [IsWhole, IsWhole, tokens_latexAddress, List.mem_flatMap]
  simp [itself]

/-- **An address fits exactly if it did before it was escaped.** -/
theorem fits_latexAddress_iff (target : String) :
    delimiter.Fits (Escape.latexAddress target) ↔ delimiter.Fits target := by
  constructor
  · intro fits
    have holds := fits.holds
    rw [tokens_latexAddress, holds_addressTokens_iff] at holds
    exact ⟨(isWhole_latexAddress_iff target).mp fits.whole, holds⟩
  · intro fits
    refine ⟨(isWhole_latexAddress_iff target).mpr fits.whole, ?_⟩
    rw [tokens_latexAddress, holds_addressTokens_iff]
    exact fits.holds

/-- The first argument of a command in markup, closed where the writer closes it: whatever follows
the markup, the argument that is read is the one that was written. -/
def EndsAsWritten (markup name : String) (delimiter : Delimiter) (argument : String) : Prop :=
  ∃ after, markup = "\\" ++ name ++ delimiter.around argument ++ after ∧
    ∀ rest, firstArgument? (markup ++ rest) = some (argument, after ++ rest)

theorem EndsAsWritten.firstArgument_eq {markup name argument : String} {delimiter : Delimiter}
    (ends : EndsAsWritten markup name delimiter argument) :
    (firstArgument? markup).map Prod.fst = some argument := by
  obtain ⟨after, -, reads⟩ := ends
  have alone := reads ""
  rw [String.append_empty] at alone
  rw [alone, Option.map_some]

/-- The argument ends as written if and only if it stays within its delimiters. -/
theorem endsAsWritten_iff {markup name argument after : String} (named : isCommandName name)
    (same : markup = "\\" ++ name ++ delimiter.around argument ++ after) :
    EndsAsWritten markup name delimiter argument ↔ delimiter.Fits argument := by
  constructor
  · rintro ⟨after, same, reads⟩
    have alone := reads ""
    rw [String.append_empty, String.append_empty, same] at alone
    exact (firstArgument?_eq_some_iff delimiter named argument after).mp alone
  · intro fits
    refine ⟨after, same, fun rest => ?_⟩
    rw [same, String.append_assoc]
    exact (firstArgument?_eq_some_iff delimiter named argument (after ++ rest)).mpr fits

theorem call_cons (name argument : String) (rest : List String) :
    call name (argument :: rest) =
      "\\" ++ name ++ Delimiter.braces.around argument ++ String.join (rest.map braced) := by
  simp [call, Delimiter.around, String.append_assoc]

/-- The address in the first argument of a command ends where it is closed exactly if it fits. -/
theorem endsAsWritten_address_iff {markup name target after : String} (named : isCommandName name)
    (same : markup =
      "\\" ++ name ++ delimiter.around (Escape.latexAddress target) ++ after) :
    EndsAsWritten markup name delimiter (Escape.latexAddress target) ↔ delimiter.Fits target :=
  (endsAsWritten_iff delimiter named same).trans (fits_latexAddress_iff delimiter target)

/-- **Where the arguments of links, references and images end.**  The address of a link or an image
ends where its argument is closed exactly if it fits in braces; the label of a reference does so in
braces if the reference shows nothing, and in brackets if it shows content. -/
theorem addresses_end_iff (place : Option Span) (span : Span) :
    (∀ target content,
      EndsAsWritten ((Inline.link target content span).markup dialect place) "href" .braces
          (Escape.latexAddress target) ↔
        Delimiter.braces.Fits target) ∧
      (∀ target content,
        if (Inline.markupAll dialect place content).isEmpty then
          EndsAsWritten ((Inline.crossReference target content span).markup dialect place) "ref"
              .braces (Escape.latexAddress target.label) ↔
            Delimiter.braces.Fits target.label
        else
          EndsAsWritten ((Inline.crossReference target content span).markup dialect place)
              "hyperref" .brackets (Escape.latexAddress target.label) ↔
            Delimiter.brackets.Fits target.label) ∧
      ∀ target body,
        EndsAsWritten ((Inline.command ⟨"image", target, body⟩ span).markup dialect place)
            "includegraphics" .braces (Escape.latexAddress (target.getD "")) ↔
          Delimiter.braces.Fits (target.getD "") := by
  refine ⟨fun target content => ?_, fun target content => ?_, fun target body => ?_⟩
  · cases content with
    | nil => exact endsAsWritten_address_iff .braces (by decide) (call_cons ..)
    | cons first rest => exact endsAsWritten_address_iff .braces (by decide) (call_cons ..)
  · split_ifs with nothing
    · have bare : (Inline.crossReference target content span).markup dialect place =
          call "ref" [Escape.latexAddress target.label] := if_pos nothing
      exact endsAsWritten_address_iff .braces (by decide) (bare.trans (call_cons ..))
    · exact endsAsWritten_address_iff .brackets (by decide) (if_neg nothing)
  · exact endsAsWritten_address_iff .braces (by decide) (call_cons ..)

namespace Example

/-- The argument of a link ends at a closing brace in its target, that of a reference at a bracket,
and a backslash at the end of a target quotes the brace that should close the argument. -/
theorem addresses_escape :
    firstArgument? ((Inline.link "a\x7db" [.ofText "t"] .unknown).markup dialect none) =
        some ("a", "b\x7d\x7bt\x7d") ∧
      ¬EndsAsWritten ((Inline.link "a\x7db" [.ofText "t"] .unknown).markup dialect none) "href"
        .braces (Escape.latexAddress "a\x7db") ∧
      ¬EndsAsWritten ((Inline.crossReference (.ofRaw "a]b") [.ofText "t"] .unknown).markup dialect
        none) "hyperref" .brackets (Escape.latexAddress "a]b") ∧
      ¬EndsAsWritten ((Inline.command ⟨"image", some "a\\", ""⟩ .unknown).markup dialect none)
        "includegraphics" .braces (Escape.latexAddress "a\\") := by
  refine ⟨by decide, fun ends => ?_, fun ends => ?_, fun ends => ?_⟩
  · exact absurd ends.firstArgument_eq (by decide)
  · exact absurd ends.firstArgument_eq (by decide)
  · exact absurd ends.firstArgument_eq (by decide)

end Example

end Rendition.Latex
