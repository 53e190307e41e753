import Mathlib.Data.List.DropRight
import AssemblyBrowser.Store.Worker

/-!
# Session texts

A session is written as an array of quoted paths, a line for each. Whatever
characters the paths hold, reading the text gives the same paths again.
-/

namespace AssemblyBrowser

namespace Json

/-!
## Quoted texts
-/

theorem unit?_hexDigits :
    ∀ n < 32, unit? '0' '0' (hexDigit (n / 16)) (hexDigit (n % 16)) = some n := by
  decide

theorem readQuoted_escapeChar (c : Char) (rest : List Char) :
    readQuoted (escapeChar c ++ rest) = (readQuoted rest).map fun r => (c :: r.1, r.2) := by
  unfold escapeChar
  split
  case isTrue h => subst h; rfl
  case isFalse hquote =>
  split
  case isTrue h => subst h; rfl
  case isFalse hbackslash =>
  split
  case isTrue h => subst h; rfl
  case isFalse =>
  split
  case isTrue h => subst h; rfl
  case isFalse =>
  split
  case isTrue h => subst h; rfl
  case isFalse =>
  split
  case isTrue h => subst h; rfl
  case isFalse =>
  split
  case isTrue h => subst h; rfl
  case isFalse =>
  split
  case isTrue hlow =>
    have hunit := unit?_hexDigits c.toNat hlow
    have hplain : c.toNat < 0xD800 ∨ 0xE000 ≤ c.toNat := Or.inl (by omega)
    rw [List.cons_append, List.cons_append, List.cons_append, List.cons_append, List.cons_append,
      List.cons_append, List.nil_append, readQuoted, hunit]
    simp only [if_pos hplain, Char.ofNat_toNat]
  case isFalse hlow =>
    rw [List.singleton_append, readQuoted.eq_def]
    split
    case h_1 hnil => cases hnil
    case h_2 hcons =>
      cases hcons
      exact absurd rfl hquote
    case h_3 hcons =>
      cases hcons
      exact absurd rfl hbackslash
    case h_4 hcons =>
      cases hcons
      exact absurd rfl hbackslash
    case h_5 hcons =>
      cases hcons
      rw [if_neg (by simp [hbackslash, hlow])]

theorem readQuoted_escaped (chars rest : List Char) :
    readQuoted (chars.flatMap escapeChar ++ '"' :: rest) = some (chars, rest) := by
  induction chars with
  | nil => rfl
  | cons c chars ih =>
      rw [List.flatMap_cons, List.append_assoc, readQuoted_escapeChar, ih]
      rfl

theorem toList_quote (text : String) :
    (quote text).toList = '"' :: (text.toList.flatMap escapeChar ++ ['"']) := by
  rw [quote, String.toList_ofList]
  rfl

/-!
## Arrays of texts
-/

theorem skipBlanks_append {blanks : List Char} (h : ∀ c ∈ blanks, isBlank c = true)
    (rest : List Char) : skipBlanks (blanks ++ rest) = skipBlanks rest := by
  induction blanks with
  | nil => rfl
  | cons c blanks ih =>
      show skipBlanks (c :: (blanks ++ rest)) = skipBlanks rest
      rw [skipBlanks, List.dropWhile_cons_of_pos (h c List.mem_cons_self)]
      exact ih fun d hd => h d (List.mem_cons_of_mem c hd)

theorem isBlank_of_mem_indentation {level : Nat} {c : Char}
    (h : c ∈ (indentation level).toList) : isBlank c = true := by
  rw [indentation, String.toList_append] at h
  rcases List.mem_append.mp h with hbreak | hspace
  · rw [List.mem_singleton.mp hbreak]
    rfl
  · rw [String.toList_ofList] at hspace
    rw [List.eq_of_mem_replicate hspace]
    rfl

theorem skipBlanks_indentation (level : Nat) (rest : List Char) :
    skipBlanks ((indentation level).toList ++ rest) = skipBlanks rest :=
  skipBlanks_append (fun _ => isBlank_of_mem_indentation) rest

theorem readValue_quote (fuel depth level : Nat) (text : String) (rest : List Char) :
    readValue (fuel + 1) depth ((indentation level).toList ++ ((quote text).toList ++ rest)) =
      some (.text text, rest) := by
  have hskip : skipBlanks ((indentation level).toList ++ ((quote text).toList ++ rest)) =
      '"' :: (text.toList.flatMap escapeChar ++ '"' :: rest) := by
    rw [skipBlanks_indentation, toList_quote, List.cons_append, List.append_assoc]
    rfl
  rw [readValue, hskip]
  simp only [readQuoted_escaped, Option.map_some, String.ofList_toList]

theorem readElements_last {fuel depth : Nat} {chars between rest : List Char} {json : Json}
    (hvalue : readValue fuel depth chars = some (json, between))
    (hend : skipBlanks between = ']' :: rest) :
    readElements (fuel + 1) depth chars = some ([json], rest) := by
  rw [readElements, hvalue]
  simp only [hend]

theorem readElements_more {fuel depth : Nat} {chars between rest after : List Char} {json : Json}
    {others : List Json} (hvalue : readValue fuel depth chars = some (json, between))
    (hnext : skipBlanks between = ',' :: rest)
    (hothers : readElements fuel depth rest = some (others, after)) :
    readElements (fuel + 1) depth chars = some (json :: others, after) := by
  rw [readElements, hvalue]
  simp only [hnext, hothers, Option.map_some]

theorem toList_indentedElements_last (level : Nat) (text : String) :
    (indentedElements level [.text text]).toList =
      (indentation level).toList ++ (quote text).toList := by
  rw [← String.toList_append]
  rfl

theorem toList_indentedElements_more (level : Nat) (text next : String) (others : List String) :
    (indentedElements level ((text :: next :: others).map .text)).toList =
      (indentation level).toList ++ ((quote text).toList
        ++ ',' :: (indentedElements level ((next :: others).map .text)).toList) := by
  show (indentation level ++ quote text ++ "," ++ indentedElements level _).toList = _
  rw [String.toList_append, String.toList_append, String.toList_append, List.append_assoc,
    List.append_assoc]
  rfl

/-- Elements that are texts are read back up to the bracket behind them. -/
theorem readElements_texts {texts : List String} (hne : texts ≠ []) {fuel : Nat}
    (hfuel : texts.length < fuel) (depth level outer : Nat) (rest : List Char) :
    readElements fuel depth
        ((indentedElements level (texts.map .text)).toList
          ++ ((indentation outer).toList ++ ']' :: rest)) =
      some (texts.map .text, rest) := by
  induction texts generalizing fuel with
  | nil => exact absurd rfl hne
  | cons text others ih =>
      rcases fuel with _ | _ | fuel
      · cases hfuel
      · simp at hfuel
      · cases others with
        | nil =>
            show readElements _ depth ((indentedElements level [.text text]).toList ++ _) = _
            rw [toList_indentedElements_last, List.append_assoc]
            apply readElements_last (readValue_quote fuel depth level text _)
            rw [skipBlanks_indentation]
            rfl
        | cons next others =>
            rw [toList_indentedElements_more, List.append_assoc, List.append_assoc]
            apply readElements_more (readValue_quote fuel depth level text _) rfl
            exact ih (by simp) (by simpa using hfuel)

/-!
## Whole texts
-/

theorem toList_indented (texts : List String) (hne : texts ≠ []) :
    (indented (.array (texts.map .text))).toList =
      '[' :: ((indentedElements 1 (texts.map .text)).toList
        ++ ((indentation 0).toList ++ [']'])) := by
  cases texts with
  | nil => exact absurd rfl hne
  | cons text others =>
      show ("[" ++ indentedElements 1 ((text :: others).map .text) ++ indentation 0 ++ "]").toList
        = _
      rw [String.toList_append, String.toList_append, String.toList_append, List.append_assoc,
        List.append_assoc]
      rfl

/-- Every element takes up at least one character. -/
theorem length_le_indentedElements (level : Nat) (texts : List String) :
    texts.length ≤ (indentedElements level (texts.map .text)).toList.length := by
  induction texts with
  | nil => simp
  | cons text others ih =>
      cases others with
      | nil =>
          show _ ≤ (indentedElements level [.text text]).toList.length
          rw [toList_indentedElements_last, toList_quote]
          simp
          omega
      | cons next others =>
          rw [toList_indentedElements_more]
          simp only [List.length_append, List.length_cons] at ih ⊢
          omega

theorem skipBlanks_skipBlanks (chars : List Char) :
    skipBlanks (skipBlanks chars) = skipBlanks chars := by
  unfold skipBlanks
  rw [List.dropWhile_idempotent]

theorem readElements_skipBlanks (fuel depth : Nat) (chars : List Char) :
    readElements fuel depth (skipBlanks chars) = readElements fuel depth chars := by
  rcases fuel with _ | _ | fuel
  · simp only [readElements]
  · simp only [readElements, readValue]
  · rw [readElements, readElements, readValue, readValue, skipBlanks_skipBlanks]

/-- The text of a list that is not empty begins with a quote. -/
theorem skipBlanks_indentedElements (level : Nat) {texts : List String} (hne : texts ≠ [])
    (rest : List Char) : ∃ others,
      skipBlanks ((indentedElements level (texts.map .text)).toList ++ rest) = '"' :: others := by
  cases texts with
  | nil => exact absurd rfl hne
  | cons text others =>
      cases others with
      | nil =>
          have hskip : skipBlanks ((indentedElements level [.text text]).toList ++ rest) =
              skipBlanks ((quote text).toList ++ rest) := by
            rw [toList_indentedElements_last, List.append_assoc, skipBlanks_indentation]
          rw [toList_quote] at hskip
          exact ⟨_, hskip⟩
      | cons next others =>
          rw [toList_indentedElements_more, List.append_assoc, skipBlanks_indentation,
            toList_quote]
          exact ⟨_, rfl⟩

theorem readValue_array {fuel depth : Nat} {chars rest : List Char} {elements : List Json}
    (hfirst : ∀ others, skipBlanks chars ≠ ']' :: others)
    (h : readElements fuel depth chars = some (elements, rest)) :
    readValue (fuel + 1) (depth + 1) ('[' :: chars) = some (.array elements, rest) := by
  have hbracket : skipBlanks ('[' :: chars) = '[' :: chars := rfl
  -- By `hfirst` the bracket does not close at once, so elements are read.
  simp only [readValue, hbracket]
  rw [readElements_skipBlanks, h, Option.map_some]

/-- An array of texts is read as it was written. -/
theorem parse?_texts (texts : List String) :
    parse? (indented (.array (texts.map .text))) = some (.array (texts.map .text)) := by
  by_cases hne : texts = []
  · subst hne
    rfl
  · have hfuel : texts.length < ('[' :: ((indentedElements 1 (texts.map .text)).toList
        ++ ((indentation 0).toList ++ [']']))).length := by
      have hle := length_le_indentedElements 1 texts
      rw [List.length_cons, List.length_append]
      omega
    have hfirst : ∀ others, skipBlanks ((indentedElements 1 (texts.map .text)).toList
        ++ ((indentation 0).toList ++ [']'])) ≠ ']' :: others := by
      intro others hclosed
      rcases skipBlanks_indentedElements 1 hne ((indentation 0).toList ++ [']']) with
        ⟨rest, hquote⟩
      rw [hquote] at hclosed
      cases hclosed
    unfold parse?
    rw [toList_indented texts hne]
    simp only [maxDepth, readValue_array hfirst (readElements_texts hne hfuel 126 1 0 [])]
    rfl

end Json

namespace Session

theorem mapM_text? (paths : List String) : (paths.map Json.text).mapM Json.text? = some paths := by
  induction paths with
  | nil => rfl
  | cons path rest ih => simp [Json.text?, ih]

theorem toList_text (paths : List String) : ∃ rest, (text paths).toList = '[' :: rest := by
  by_cases hne : paths = []
  · subst hne
    exact ⟨[']'], rfl⟩
  · exact ⟨_, Json.toList_indented paths hne⟩

/-- A session is never blank, not even one without paths. -/
theorem trim_text (paths : List String) : (Blank.trim (text paths)).isEmpty = false := by
  rcases toList_text paths with ⟨rest, htext⟩
  rw [String.isEmpty_eq_false_iff]
  intro hempty
  have hchars : Blank.trimChars ('[' :: rest) = [] := by
    rw [← htext, ← String.toList_ofList (l := Blank.trimChars (text paths).toList)]
    exact congrArg String.toList hempty
  have hkept : ('[' :: rest).dropWhile Blank.isBlank = '[' :: rest := rfl
  unfold Blank.trimChars at hchars
  rw [hkept, List.reverse_eq_nil_iff, List.dropWhile_eq_nil_iff] at hchars
  have hblank := hchars '[' (by simp)
  cases hblank

/-- What a session is written as is read as that session. -/
theorem parse_text (paths : List String) : parse (text paths) = .ok paths := by
  have hread : ((Json.parse? (text paths)).bind Json.array?).bind (·.mapM Json.text?) =
      some paths := by
    rw [text, Json.parse?_texts]
    exact mapM_text? paths
  unfold parse
  rw [trim_text, if_neg Bool.false_ne_true, hread]

theorem load_of_read {files : FileSystem} {path : String} {paths : List String}
    (h : files.read path = .ok (Utf8.encode (text paths))) : load files path = .ok paths := by
  unfold load
  rw [h]
  simp only [Utf8.decode_encode, parse_text]

end Session
end AssemblyBrowser
