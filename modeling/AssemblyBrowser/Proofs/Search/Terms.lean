import AssemblyBrowser.Search.Query

/-!
# Terms in quotes

Any texts can be the terms of a query. A text in quotes is one term, whatever
blanks, colons and quotes are in it, as long as no backslash stands in front of
the closing quote; a word needs no quotes. Either way the terms of a query are
the texts that it was put together from.
-/

namespace AssemblyBrowser
namespace SearchRequest

/-- A text as it stands between quotes: each quote in it stands behind a backslash. -/
def escaped : List Char → List Char
  | [] => []
  | c :: rest => if c = '"' then '\\' :: '"' :: escaped rest else c :: escaped rest

/-- A text in quotes. -/
def quoted (text : String) : String := String.ofList ('"' :: (escaped text.toList ++ ['"']))

/-- No backslash stands at the end of the text, where it would make a character of the closing
quote. -/
def CanBeQuoted (text : String) : Prop := text.toList.getLast? ≠ some '\\'

instance (text : String) : Decidable (CanBeQuoted text) :=
  inferInstanceAs (Decidable (text.toList.getLast? ≠ some '\\'))

/-- The text is a term without any quotes. -/
def IsWord (text : String) : Prop :=
  text ≠ "" ∧ ∀ c ∈ text.toList, Blank.isBlank c = false ∧ c ≠ '"'

instance (text : String) : Decidable (IsWord text) :=
  inferInstanceAs (Decidable (text ≠ "" ∧ ∀ c ∈ text.toList, Blank.isBlank c = false ∧ c ≠ '"'))

/-- Texts with one or more blanks between each and the next. -/
inductive Spaced : (texts : List String) → (query : String) → Prop
  | none : Spaced [] ""
  | single (text : String) : Spaced [text] text
  | next {first second blanks query : String} {others : List String} (hsome : blanks ≠ "")
      (hblank : ∀ c ∈ blanks.toList, Blank.isBlank c = true)
      (hrest : Spaced (second :: others) query) :
      Spaced (first :: second :: others) (first ++ blanks ++ query)

/-!
## One step
-/

/-- Between quotes a character is one of the term, unless it is a quote or stands in front of one
as a backslash. -/
theorem splitTermsFrom_inside {c : Char} (hquote : c ≠ '"') (hasTerm : Bool)
    (current : List Char) {rest : List Char} (hescape : c = '\\' → rest.head? ≠ some '"') :
    splitTermsFrom true hasTerm current (c :: rest) =
      splitTermsFrom true hasTerm (c :: current) rest := by
  rw [splitTermsFrom.eq_3]
  · simp [hquote]
  · rintro behind - hc rfl
    exact hescape hc rfl

theorem splitTermsFrom_blank {c : Char} (hblank : Blank.isBlank c = true) (rest : List Char) :
    splitTermsFrom false false [] (c :: rest) = splitTermsFrom false false [] rest := by
  have hquote : c ≠ '"' := by
    rintro rfl
    cases hblank
  rw [splitTermsFrom.eq_3 _ _ _ _ _ (by simp)]
  simp [hquote, hblank]

theorem splitTermsFrom_plain {c : Char} (hblank : Blank.isBlank c = false) (hquote : c ≠ '"')
    (current rest : List Char) :
    splitTermsFrom false false current (c :: rest) =
      splitTermsFrom false false (c :: current) rest := by
  rw [splitTermsFrom.eq_3 _ _ _ _ _ (by simp)]
  simp [hquote, hblank]

/-- What follows a term in a query: nothing, or a blank. -/
def StartsBlank (rest : List Char) : Prop := ∀ c ∈ rest.head?, Blank.isBlank c = true

/-- Behind its last character a term is complete. -/
theorem splitTermsFrom_end {hasTerm : Bool} {current rest : List Char}
    (hterm : (hasTerm || !current.isEmpty) = true) (hrest : StartsBlank rest) :
    splitTermsFrom false hasTerm current rest =
      current.reverse :: splitTermsFrom false false [] rest := by
  cases rest with
  | nil => simp [splitTermsFrom, hterm]
  | cons c rest =>
      have hblank := hrest c rfl
      have hquote : c ≠ '"' := by
        rintro rfl
        cases hblank
      rw [splitTermsFrom_blank hblank, splitTermsFrom.eq_3 _ _ _ _ _ (by simp)]
      simp [hquote, hblank, hterm]

/-!
## One text
-/

/-- A text between quotes begins with no quote. -/
theorem head?_escaped_append {text : List Char} (hsome : text ≠ []) (rest : List Char) :
    (escaped text ++ rest).head? ≠ some '"' := by
  cases text with
  | nil => exact absurd rfl hsome
  | cons c text =>
      by_cases hquote : c = '"'
      · simp [escaped, hquote]
      · simp [escaped, hquote]

/-- Between quotes a text is read as it is, up to the closing quote. -/
theorem splitTermsFrom_escaped {text : List Char} (hlast : text.getLast? ≠ some '\\')
    (hasTerm : Bool) (current rest : List Char) :
    splitTermsFrom true hasTerm current (escaped text ++ '"' :: rest) =
      splitTermsFrom false true (text.reverse ++ current) rest := by
  induction text generalizing current with
  | nil =>
      rw [escaped, List.nil_append, splitTermsFrom.eq_3 _ _ _ _ _ (by simp)]
      simp
  | cons c text ih =>
      have hbehind : text.getLast? ≠ some '\\' := by
        intro hbackslash
        exact hlast (by rw [List.getLast?_cons, hbackslash, Option.getD_some])
      rw [List.reverse_cons, List.append_assoc, List.singleton_append, ← ih hbehind (c :: current)]
      by_cases hquote : c = '"'
      · rw [hquote, escaped, if_pos rfl, List.cons_append, List.cons_append, splitTermsFrom]
      · rw [escaped, if_neg hquote, List.cons_append]
        refine splitTermsFrom_inside hquote hasTerm current fun hbackslash => ?_
        -- The text goes on, so it is not the closing quote that follows.
        refine head?_escaped_append ?_ _
        rintro rfl
        rw [hbackslash] at hlast
        exact hlast rfl

/-- Outside quotes a word is read as it is. -/
theorem splitTermsFrom_word {word : List Char}
    (hword : ∀ c ∈ word, Blank.isBlank c = false ∧ c ≠ '"') (current rest : List Char) :
    splitTermsFrom false false current (word ++ rest) =
      splitTermsFrom false false (word.reverse ++ current) rest := by
  induction word generalizing current with
  | nil => rfl
  | cons c word ih =>
      obtain ⟨hblank, hquote⟩ := hword c List.mem_cons_self
      rw [List.cons_append, splitTermsFrom_plain hblank hquote,
        ih (fun d hd => hword d (List.mem_cons_of_mem c hd)), List.reverse_cons,
        List.append_assoc, List.singleton_append]

/-- The first text is written so that it is read as one term, which is the second text. -/
def ReadsAs (written text : String) : Prop :=
  ∀ rest, StartsBlank rest → splitTermsFrom false false [] (written.toList ++ rest) =
    text.toList :: splitTermsFrom false false [] rest

theorem CanBeQuoted.readsAs {text : String} (h : CanBeQuoted text) :
    ReadsAs (quoted text) text := by
  intro rest hrest
  have hopens : splitTermsFrom false false [] ('"' :: (escaped text.toList ++ '"' :: rest)) =
      splitTermsFrom true true [] (escaped text.toList ++ '"' :: rest) := by
    rw [splitTermsFrom.eq_3 _ _ _ _ _ (by simp)]
    simp
  rw [quoted, String.toList_ofList, List.cons_append, List.append_assoc, List.singleton_append,
    hopens, splitTermsFrom_escaped h, List.append_nil, splitTermsFrom_end rfl hrest,
    List.reverse_reverse]

theorem IsWord.readsAs {word : String} (h : IsWord word) : ReadsAs word word := by
  intro rest hrest
  have hsome : (false || !word.toList.reverse.isEmpty) = true := by simp [h.1]
  rw [splitTermsFrom_word h.2, List.append_nil, splitTermsFrom_end hsome hrest,
    List.reverse_reverse]

/-!
## All of them
-/

theorem splitTermsFrom_blanks {blanks : List Char}
    (hblank : ∀ c ∈ blanks, Blank.isBlank c = true) (rest : List Char) :
    splitTermsFrom false false [] (blanks ++ rest) = splitTermsFrom false false [] rest := by
  induction blanks with
  | nil => rfl
  | cons c blanks ih =>
      rw [List.cons_append, splitTermsFrom_blank (hblank c List.mem_cons_self)]
      exact ih fun d hd => hblank d (List.mem_cons_of_mem c hd)

theorem startsBlank_append {blanks : String} (hsome : blanks ≠ "")
    (hblank : ∀ c ∈ blanks.toList, Blank.isBlank c = true) (rest : List Char) :
    StartsBlank (blanks.toList ++ rest) := by
  intro c hc
  cases hblanks : blanks.toList with
  | nil => exact absurd (String.toList_eq_nil_iff.mp hblanks) hsome
  | cons blank others =>
      rw [hblanks] at hc hblank
      cases hc
      exact hblank c List.mem_cons_self

/-- Texts with blanks between them are read one after the other. -/
theorem Spaced.splitTerms_eq {write : String → String} {texts : List String} {query : String}
    (h : Spaced (texts.map write) query) (hreads : ∀ text ∈ texts, ReadsAs (write text) text) :
    splitTerms query = texts := by
  have hterms : splitTermsFrom false false [] query.toList = texts.map String.toList := by
    induction texts generalizing query with
    | nil =>
        cases h
        rfl
    | cons text texts ih =>
        have hfirst := hreads text List.mem_cons_self
        cases texts with
        | nil =>
            cases h
            have hread := hfirst [] (by simp [StartsBlank])
            rwa [List.append_nil] at hread
        | cons second others =>
            rw [List.map_cons, List.map_cons] at h
            cases h with
            | @next _ _ blanks behind _ hsome hblank hrest =>
                have hbehind := ih hrest fun other hother =>
                  hreads other (List.mem_cons_of_mem text hother)
                rw [String.toList_append, String.toList_append, List.append_assoc,
                  hfirst _ (startsBlank_append hsome hblank _), splitTermsFrom_blanks hblank,
                  hbehind]
                rfl
  rw [splitTerms, hterms, List.map_map]
  simp

/-- Quoting is lossless: texts in quotes with blanks between them are the terms of the query, and
words are without quotes. -/
theorem quoting_is_lossless :
    (∀ texts query, (∀ text ∈ texts, CanBeQuoted text) → Spaced (texts.map quoted) query →
        splitTerms query = texts) ∧
      ∀ words query, (∀ word ∈ words, IsWord word) → Spaced words query →
        splitTerms query = words := by
  refine ⟨fun texts query htexts hspaced => ?_, fun words query hwords hspaced => ?_⟩
  · exact hspaced.splitTerms_eq fun text htext => (htexts text htext).readsAs
  · rw [← List.map_id' words] at hspaced
    exact hspaced.splitTerms_eq fun word hword => (hwords word hword).readsAs

theorem quoting_is_lossless_awkward_texts :
    quoted "" = "\"\"" ∧ quoted "a\\\" :b" = "\"a\\\\\" :b\"" ∧
      splitTerms "\"\" \t\"a\\\\\" :b\"" = ["", "a\\\" :b"] ∧
      splitTerms "md:a  b\\" = ["md:a", "b\\"] := by
  refine ⟨by decide, by decide, ?_, ?_⟩
  · have hspaced : Spaced (["", "a\\\" :b"].map quoted) "\"\" \t\"a\\\\\" :b\"" :=
      @Spaced.next _ _ " \t" _ _ (by decide) (by simp [Blank.isBlank]) (.single _)
    exact quoting_is_lossless.1 _ _ (by decide) hspaced
  · have hspaced : Spaced ["md:a", "b\\"] "md:a  b\\" :=
      @Spaced.next _ _ "  " _ _ (by decide) (by simp [Blank.isBlank]) (.single _)
    exact quoting_is_lossless.2 _ _ (by simp [IsWord, Blank.isBlank]) hspaced

end SearchRequest
end AssemblyBrowser
