import Mathlib.Data.List.Infix
import Mathlib.Data.List.TakeWhile
import AssemblyBrowser.Proofs.Search.Exclusion

/-!
# Texts that stand in names

Names and keywords are compared in small letters. The small letters of a character
are the same wherever it stands, with one exception: a sigma has a form of its own
at the end of a word. A text may end where a word of the name goes on, or begin
inside a word, so a sigma at its edge can have one form in the text and another in
the name. Then the text is not found, although it stands in the name as it is.
-/

namespace AssemblyBrowser
namespace Unicode

/-!
## Small letters in the middle of a text
-/

abbrev sigma : Char := '\u03A3'

/-- Whether a sigma between these characters ends a word; those in front of it are in reverse. -/
def endsWord (before after : List Char) : Bool := beginsCased before && !beginsCased after

/-- The small letters of a character between others; those in front of it are in reverse. -/
def lowerAt (before : List Char) (c : Char) (after : List Char) : List Char :=
  if c = sigma then (if endsWord before after then ['\u03C2'] else ['\u03C3']) else lowerChar c

/-- The small letters of a text between others; the characters in front of it are in reverse. -/
def lowerBetween : (before text after : List Char) → List Char
  | _, [], _ => []
  | before, c :: rest, after =>
      lowerAt before c (rest ++ after) ++ lowerBetween (c :: before) rest after

theorem lowerFrom_cons (before : List Char) (c : Char) (rest : List Char) :
    lowerFrom before (c :: rest) = lowerAt before c rest ++ lowerFrom (c :: before) rest := rfl

theorem lowerFrom_append (before text after : List Char) :
    lowerFrom before (text ++ after) =
      lowerBetween before text after ++ lowerFrom (text.reverse ++ before) after := by
  induction text generalizing before with
  | nil => rfl
  | cons c rest ih =>
      rw [List.cons_append, lowerFrom_cons, ih, lowerBetween, List.append_assoc,
        List.reverse_cons, List.append_assoc, List.singleton_append]

theorem lowerBetween_nil (before text : List Char) :
    lowerBetween before text [] = lowerFrom before text := by
  have happend := lowerFrom_append before text []
  rw [List.append_nil, lowerFrom, List.append_nil] at happend
  exact happend.symm

theorem length_lowerAt (before before' : List Char) (c : Char) (after after' : List Char) :
    (lowerAt before c after).length = (lowerAt before' c after').length := by
  unfold lowerAt
  split_ifs <;> rfl

theorem length_lowerBetween (before before' text after after' : List Char) :
    (lowerBetween before text after).length = (lowerBetween before' text after').length := by
  induction text generalizing before before' with
  | nil => rfl
  | cons c rest ih =>
      rw [lowerBetween, lowerBetween, List.length_append, List.length_append,
        length_lowerAt before before' c _ (rest ++ after'), ih (c :: before) (c :: before')]

/-!
## Sigmas that keep their form
-/

theorem lowerAt_eq_iff {before before' : List Char} {c : Char} {after after' : List Char} :
    lowerAt before c after = lowerAt before' c after' ↔
      (c = sigma → endsWord before after = endsWord before' after') := by
  unfold lowerAt
  by_cases hsigma : c = sigma
  · rw [if_pos hsigma, if_pos hsigma, forall_prop_of_true hsigma]
    cases endsWord before after <;> cases endsWord before' after' <;> decide
  · rw [if_neg hsigma, if_neg hsigma]
    exact iff_of_true rfl fun h => absurd h hsigma

/-- A text has the same small letters in two places if and only if each sigma of it ends a word in
both or in neither. -/
theorem lowerBetween_eq_iff {before before' text after after' : List Char} :
    lowerBetween before text after = lowerBetween before' text after' ↔
      ∀ first rest, text = first ++ sigma :: rest →
        endsWord (first.reverse ++ before) (rest ++ after) =
          endsWord (first.reverse ++ before') (rest ++ after') := by
  induction text generalizing before before' with
  | nil => exact iff_of_true rfl fun first rest h => absurd h.symm (by simp)
  | cons c others ih =>
      -- Both places give the first character as many small letters, so they can be compared apart.
      have hsplit : lowerBetween before (c :: others) after =
          lowerBetween before' (c :: others) after' ↔
            (c = sigma → endsWord before (others ++ after) = endsWord before' (others ++ after')) ∧
              lowerBetween (c :: before) others after =
                lowerBetween (c :: before') others after' := by
        rw [← lowerAt_eq_iff, lowerBetween, lowerBetween]
        exact ⟨fun h => List.append_inj h (length_lowerAt ..), fun ⟨hhead, htail⟩ => by
          rw [hhead, htail]⟩
      rw [hsplit, ih]
      constructor
      · rintro ⟨hhead, htail⟩ first rest htext
        rcases List.cons_eq_append_iff.mp htext with ⟨rfl, hrest⟩ | ⟨front, rfl, hothers⟩
        · obtain ⟨hsigma, rfl⟩ := List.cons.inj hrest
          exact hhead hsigma.symm
        · rw [List.reverse_cons, List.append_assoc, List.append_assoc]
          exact htail front rest hothers
      · intro hall
        refine ⟨fun hsigma => hall [] others (by rw [hsigma, List.nil_append]), ?_⟩
        intro first rest hothers
        have hform := hall (c :: first) rest (by rw [hothers, List.cons_append])
        rwa [List.reverse_cons, List.append_assoc, List.append_assoc] at hform

/-- Each sigma of a text has the same form between other texts as in the text alone. -/
def KeepsSigmas (before text after : List Char) : Prop :=
  ∀ first rest, text = first ++ sigma :: rest →
    endsWord (first.reverse ++ before.reverse) (rest ++ after) = endsWord first.reverse rest

theorem keepsSigmas_iff {before text after : List Char} :
    KeepsSigmas before text after ↔ lowerBetween before.reverse text after = lowerChars text := by
  rw [lowerChars, ← lowerBetween_nil, lowerBetween_eq_iff]
  simp only [List.append_nil]
  rfl

/-- Between other texts a text has as many small letters as alone, so that these can stand among
those in one way only. -/
theorem keepsSigmas_of_isInfix {before text after : List Char}
    (h : lowerChars text <:+: lowerBetween before.reverse text after) :
    KeepsSigmas before text after := by
  have hlength : (lowerChars text).length = (lowerBetween before.reverse text after).length := by
    rw [lowerChars, ← lowerBetween_nil]
    exact length_lowerBetween ..
  exact keepsSigmas_iff.mpr (h.eq_of_length hlength).symm

/-- A text whose sigmas keep their form is there in small letters, too. -/
theorem KeepsSigmas.isInfix {before text after : List Char} (h : KeepsSigmas before text after) :
    lowerChars text <:+: lowerChars (before ++ text ++ after) := by
  have hname : lowerChars (before ++ text ++ after) = lowerBetween [] before (text ++ after) ++
      (lowerChars text ++ lowerFrom (text.reverse ++ before.reverse) after) := by
    rw [← keepsSigmas_iff.mp h, ← lowerFrom_append, lowerChars, List.append_assoc,
      lowerFrom_append, List.append_nil]
  exact ⟨_, _, by rw [hname, List.append_assoc]⟩

/-!
## Sigmas at the edge of a text
-/

/-- Only characters that are passed over in the search for letters with case. -/
def AllIgnorable (text : List Char) : Prop := ∀ c ∈ text, isCaseIgnorable c = true

theorem beginsCased_append_of_ignorable {first : List Char} (h : AllIgnorable first)
    (second : List Char) : beginsCased (first ++ second) = beginsCased second := by
  rw [beginsCased, List.dropWhile_append_of_pos h]
  rfl

theorem beginsCased_append_of_not_ignorable {first : List Char} (h : ¬ AllIgnorable first)
    (second : List Char) : beginsCased (first ++ second) = beginsCased first := by
  have hne : first.dropWhile isCaseIgnorable ≠ [] := by
    rw [Ne, List.dropWhile_eq_nil_iff]
    exact h
  rw [beginsCased, beginsCased, List.dropWhile_append, if_neg (by simpa using hne),
    List.head?_append_of_ne_nil _ hne]

theorem beginsCased_of_ignorable {text : List Char} (h : AllIgnorable text) :
    beginsCased text = false := by
  rw [beginsCased, List.dropWhile_eq_nil_iff.mpr h]
  rfl

theorem AllIgnorable.reverse {text : List Char} (h : AllIgnorable text) :
    AllIgnorable text.reverse :=
  fun c hmem => h c (List.mem_reverse.mp hmem)

/-- Whether a sigma of the text ends a word is left to what stands around the text: in front of the
sigma there is nothing to decide it and no letter behind, or it ends a word and there is nothing to
decide behind it. -/
def HasOpenSigma (text : List Char) : Prop :=
  ∃ first rest, text = first ++ sigma :: rest ∧
    (AllIgnorable first ∧ beginsCased rest = false ∨
      beginsCased first.reverse = true ∧ AllIgnorable rest)

/-- Without such a sigma all sigmas keep their form, whatever stands around the text. -/
theorem keepsSigmas_of_not_hasOpenSigma {text : List Char} (h : ¬ HasOpenSigma text)
    (before after : List Char) : KeepsSigmas before text after := by
  intro first rest htext
  unfold endsWord
  by_cases hfront : AllIgnorable first
  · have hcased : beginsCased rest = true := by
      rw [← Bool.not_eq_false]
      exact fun hnone => h ⟨first, rest, htext, .inl ⟨hfront, hnone⟩⟩
    have hbehind : ¬ AllIgnorable rest := fun hall => by
      rw [beginsCased_of_ignorable hall] at hcased
      cases hcased
    rw [beginsCased_append_of_not_ignorable hbehind, hcased, Bool.not_true, Bool.and_false,
      Bool.and_false]
  · have hreverse : ¬ AllIgnorable first.reverse := fun hall =>
      hfront (List.reverse_reverse first ▸ hall.reverse)
    rw [beginsCased_append_of_not_ignorable hreverse]
    cases hcased : beginsCased first.reverse with
    | false => rfl
    | true =>
        have hbehind : ¬ AllIgnorable rest := fun hall =>
          h ⟨first, rest, htext, .inr ⟨hcased, hall⟩⟩
        rw [beginsCased_append_of_not_ignorable hbehind]

/-- A letter whose small letters are the letter itself, and that counts for a sigma beside it. -/
structure PlainLetter (c : Char) : Prop where
  lower : lowerChar c = [c]
  ne_sigma : c ≠ sigma
  cased : beginsCased [c] = true

theorem plainLetter_a : PlainLetter 'a' := ⟨by decide, by decide, by decide +kernel⟩

theorem plainLetter_b : PlainLetter 'b' := ⟨by decide, by decide, by decide +kernel⟩

/-- A plain letter that is not the given character, if there is one. -/
theorem exists_plainLetter_ne (other : Option Char) : ∃ c, PlainLetter c ∧ other ≠ some c := by
  by_cases ha : other = some 'a'
  · refine ⟨'b', plainLetter_b, ?_⟩
    rw [ha]
    decide
  · exact ⟨'a', plainLetter_a, ha⟩

variable {c : Char} {text : List Char}

theorem PlainLetter.lowerFrom_cons (h : PlainLetter c) (before after : List Char) :
    lowerFrom before (c :: after) = c :: lowerFrom (c :: before) after := by
  rw [Unicode.lowerFrom_cons, lowerAt, if_neg h.ne_sigma, h.lower, List.singleton_append]

/-- A letter in front of the text hides it, if a sigma has another form behind the letter. -/
theorem PlainLetter.hides_cons (h : PlainLetter c) (hhead : (lowerChars text).head? ≠ some c)
    (hkeeps : ¬ KeepsSigmas [c] text []) : ¬ lowerChars text <:+: lowerChars (c :: text) := by
  have hname : lowerChars (c :: text) = c :: lowerBetween [c] text [] := by
    rw [lowerBetween_nil, lowerChars, h.lowerFrom_cons]
  rw [hname, List.infix_cons_iff, List.prefix_cons_iff]
  rintro ((hnil | ⟨others, hlower, -⟩) | hoccurs)
  · exact hkeeps (keepsSigmas_of_isInfix (hnil ▸ List.nil_infix))
  · exact absurd (by rw [hlower]; rfl) hhead
  · exact hkeeps (keepsSigmas_of_isInfix hoccurs)

/-- A letter behind the text hides it, if a sigma has another form in front of the letter. -/
theorem PlainLetter.hides_concat (h : PlainLetter c) (hlast : (lowerChars text).getLast? ≠ some c)
    (hkeeps : ¬ KeepsSigmas [] text [c]) :
    ¬ lowerChars text <:+: lowerChars (text ++ [c]) := by
  have hname : lowerChars (text ++ [c]) = lowerBetween [] text [c] ++ [c] := by
    rw [lowerChars, lowerFrom_append, h.lowerFrom_cons, lowerFrom]
  rw [hname, List.infix_concat_iff, List.suffix_concat_iff]
  rintro ((hnil | ⟨others, hlower, -⟩) | hoccurs)
  · exact hkeeps (keepsSigmas_of_isInfix (hnil ▸ List.nil_infix))
  · exact absurd (by rw [hlower, List.getLast?_concat]) hlast
  · exact hkeeps (keepsSigmas_of_isInfix hoccurs)

/-- A text with an open sigma stands in a longer text that does not have its small letters. -/
theorem HasOpenSigma.hidden (h : HasOpenSigma text) :
    ∃ name, text <:+: name ∧ ¬ lowerChars text <:+: lowerChars name := by
  obtain ⟨first, rest, htext, ⟨hfront, hnone⟩ | ⟨hcased, hbehind⟩⟩ := h
  -- A letter at the open edge decides the sigma; another one than the text has there cannot be
  -- taken for it.
  · obtain ⟨c, hplain, hne⟩ := exists_plainLetter_ne (lowerChars text).head?
    refine ⟨c :: text, List.infix_cons (List.infix_refl _), hplain.hides_cons hne fun hkeeps => ?_⟩
    have hform := hkeeps first rest htext
    rw [endsWord, endsWord, List.append_nil, hnone, List.reverse_singleton,
      beginsCased_append_of_ignorable hfront.reverse, hplain.cased,
      beginsCased_of_ignorable hfront.reverse] at hform
    cases hform
  · obtain ⟨c, hplain, hne⟩ := exists_plainLetter_ne (lowerChars text).getLast?
    refine ⟨text ++ [c], List.infix_append_of_infix_left (List.infix_refl _),
      hplain.hides_concat hne fun hkeeps => ?_⟩
    have hform := hkeeps first rest htext
    rw [endsWord, endsWord, List.reverse_nil, List.append_nil, hcased,
      beginsCased_append_of_ignorable hbehind, hplain.cased,
      beginsCased_of_ignorable hbehind] at hform
    cases hform

/-- A text is in small letters wherever it stands if and only if it has no open sigma. -/
theorem lowerChars_isInfix_iff {text : List Char} :
    (∀ name, text <:+: name → lowerChars text <:+: lowerChars name) ↔ ¬ HasOpenSigma text := by
  constructor
  · intro hall hopen
    obtain ⟨name, hoccurs, hhidden⟩ := hopen.hidden
    exact hhidden (hall name hoccurs)
  · rintro hopen name ⟨before, after, rfl⟩
    exact (keepsSigmas_of_not_hasOpenSigma hopen before after).isInfix

end Unicode

/-!
## Keywords and the names that they stand in
-/

/-- Keywords that ask for the text accept the name, and those that exclude the text do not. -/
structure FoundIn (text name : String) : Prop where
  contained : ({ kind := .contains, text } : Keyword).accepts name = true
  required : ({ kind := .required, text } : Keyword).accepts name = true
  excluded : ({ kind := .excluded, text } : Keyword).accepts name = false

theorem foundIn_iff {text name : String} : FoundIn text name ↔ OccursIgnoringCase text name := by
  rw [OccursIgnoringCase, ← occursIn_iff]
  constructor
  · exact fun h => h.contained
  · exact fun h => ⟨h, h, by rw [Keyword.accepts, h, Bool.not_true]⟩

/-- A text is found in a name that it stands in, if its sigmas have the form there that they have in
the text alone. It is found in all names that it stands in if and only if it has no open sigma. -/
theorem contained_texts_found_iff (text : String) :
    (∀ before after, Unicode.KeepsSigmas before text.toList after →
      FoundIn text (String.ofList (before ++ text.toList ++ after))) ∧
    ((∀ name : String, text.toList <:+: name.toList → FoundIn text name) ↔
      ¬ Unicode.HasOpenSigma text.toList) := by
  refine ⟨fun before after hkeeps => foundIn_iff.mpr ?_, ?_⟩
  · rw [OccursIgnoringCase, String.toList_ofList]
    exact hkeeps.isInfix
  · rw [← Unicode.lowerChars_isInfix_iff]
    constructor
    · intro hall name hoccurs
      have hfound := hall (String.ofList name) (by rwa [String.toList_ofList])
      rwa [foundIn_iff, OccursIgnoringCase, String.toList_ofList] at hfound
    · exact fun hall name hoccurs => foundIn_iff.mpr (hall name.toList hoccurs)

/-- A sigma ends the word of the text, but not the word of the name. -/
theorem sigma_inside_word_not_found :
    "ΑΣ".toList <:+: "ΑΣΑ".toList ∧
      ({ kind := .contains, text := "ΑΣ" } : Keyword).accepts "ΑΣΑ" = false ∧
      ({ kind := .required, text := "ΑΣ" } : Keyword).accepts "ΑΣΑ" = false ∧
      ({ kind := .excluded, text := "ΑΣ" } : Keyword).accepts "ΑΣΑ" = true := by
  decide +kernel

end AssemblyBrowser
