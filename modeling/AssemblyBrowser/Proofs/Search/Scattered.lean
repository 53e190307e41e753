import AssemblyBrowser.Proofs.Search.FinalSigmas

/-!
# Letters in order

A keyword may ask for the letters of a text in their order, with any letters between
them. A name is searched for one after the other, and each is taken where it first
stands. The first place is as good as any later one, since more of the name is left
behind it: the names that are found are those of which the letters are a subsequence.

Such letters are compared as small ones. A small letter is its own small letter, so
that a part of the small letters of a text can be asked for as it is.
-/

namespace AssemblyBrowser

theorem isScattered_iff {wanted text : List Char} :
    isScattered wanted text = true ↔ wanted.Sublist text := by
  induction text generalizing wanted with
  | nil =>
      cases wanted with
      | nil => exact iff_of_true rfl (List.Sublist.refl [])
      | cons w wanted => exact iff_of_false Bool.false_ne_true nofun
  | cons c rest ih =>
      cases wanted with
      | nil => exact iff_of_true rfl (List.nil_sublist _)
      | cons w wanted =>
          rw [isScattered]
          split
          case isTrue hfirst =>
            -- If the letter is taken further behind, it can be taken here as well.
            rw [ih, hfirst, List.cons_sublist_cons]
          case isFalse hother =>
            rw [ih, List.sublist_cons_iff]
            constructor
            · exact Or.inl
            · rintro (hbehind | ⟨others, hhere, -⟩)
              · exact hbehind
              · exact absurd (List.cons.inj hhere).1 hother

namespace Unicode

/-!
## Small letters of small letters
-/

/-- Whether the numbers of the first run are mapped past those of the second: in front of it, behind
it, or between two numbers of it. -/
def mapsPast (run other : MappingRun) : Bool :=
  let low := (run.1 + run.2.2.2).toNat
  let high := (run.2.1 + run.2.2.2).toNat
  Nat.blt high other.1 || (Nat.blt other.2.1 low ||
    (Nat.beq other.2.2.1 2 && (Nat.beq run.2.2.1 2 || Nat.beq run.1 run.2.1)
      && Nat.beq ((low + other.1) % 2) 1))

theorem lowerRuns_mapsPast :
    (lowerRuns.all fun run => lowerRuns.all fun other => mapsPast run other) = true := by
  decide +kernel

/-- The images of the runs are characters, and none is the one letter with two small letters. -/
theorem lowerRuns_images :
    ∀ run ∈ lowerRuns, 0 ≤ run.1 + run.2.2.2 ∧
      (run.2.1 + run.2.2.2 < 0x130 ∨ 0x130 < run.1 + run.2.2.2 ∧ run.2.1 + run.2.2.2 < 0xD800 ∨
        0xDFFF < run.1 + run.2.2.2 ∧ run.2.1 + run.2.2.2 < 0x110000) := by
  decide +kernel

variable {n image : Nat}

theorem exists_run_of_image? {runs : List MappingRun} (h : image? runs n = some image) :
    ∃ run ∈ runs, run.1 ≤ n ∧ n ≤ run.2.1 ∧ (n - run.1) % run.2.2.1 = 0 ∧
      image = (n + run.2.2.2).toNat := by
  obtain ⟨run, hmem, hrun⟩ := List.exists_of_findSome?_eq_some h
  dsimp only at hrun
  split at hrun
  case isTrue hin => exact ⟨run, hmem, hin.1, hin.2.1, hin.2.2, (Option.some.inj hrun).symm⟩
  case isFalse => cases hrun

/-- A small letter has no small letter of its own. -/
theorem image?_of_image (h : image? lowerRuns n = some image) : image? lowerRuns image = none := by
  obtain ⟨run, hrun, hlow, hhigh, hstep, rfl⟩ := exists_run_of_image? h
  have hnonneg := (lowerRuns_images run hrun).1
  by_contra hsome
  obtain ⟨again, hagain⟩ := Option.ne_none_iff_exists'.mp hsome
  obtain ⟨other, hother, hotherLow, hotherHigh, hotherStep, -⟩ := exists_run_of_image? hagain
  have hpast := List.all_eq_true.mp (List.all_eq_true.mp lowerRuns_mapsPast run hrun) other hother
  simp only [mapsPast, Bool.or_eq_true, Bool.and_eq_true, Nat.blt_eq, Nat.beq_eq] at hpast
  rcases hpast with hbefore | hbehind | ⟨⟨hevery, hparity⟩, hodd⟩
  · omega
  · omega
  · rw [hevery] at hotherStep
    rcases hparity with htwo | hsingle
    · rw [htwo] at hstep
      omega
    · omega

theorem isValidChar_of_image (h : image? lowerRuns n = some image) :
    image.isValidChar ∧ image ≠ 0x130 := by
  obtain ⟨run, hrun, hlow, hhigh, -, rfl⟩ := exists_run_of_image? h
  have himages := lowerRuns_images run hrun
  unfold Nat.isValidChar
  omega

/-- The capital letters of ASCII are mapped. -/
theorem toLower_of_image?_none {c : Char} (h : image? lowerRuns c.toNat = none) :
    c.toLower = c := by
  have hcapital := List.findSome?_eq_none_iff.mp h (0x41, 0x5A, 1, 32) List.mem_cons_self
  unfold Char.toLower
  split
  case isTrue hrange =>
    have hlow : 0x41 ≤ c.toNat := hrange.1
    have hhigh : c.toNat ≤ 0x5A := hrange.2
    dsimp only at hcapital
    rw [if_pos ⟨hlow, hhigh, Nat.mod_one _⟩] at hcapital
    cases hcapital
  case isFalse => rfl

theorem lowerChar_of_image?_none {c : Char} (h : image? lowerRuns c.toNat = none)
    (hdotted : c ≠ '\u0130') : lowerChar c = [c] := by
  unfold lowerChar
  rw [toLower_of_image?_none h, if_neg hdotted, h]
  exact ite_self _

/-- Whether the small letters of a character are their own small letters. -/
def settles (c : Char) : Bool := (lowerChar c).all fun d => lowerChar d == [d]

/-- Small letters are their own small letters. -/
theorem lowerChar_of_mem_lowerChar {c d : Char} (h : d ∈ lowerChar c) : lowerChar d = [d] := by
  have hown (hc : settles c = true) : lowerChar d = [d] :=
    eq_of_beq (List.all_eq_true.mp hc d h)
  by_cases hascii : c.toNat < 0x80
  · have hall : ((List.range 0x80).all fun n => settles (Char.ofNat n)) = true := by
      decide +kernel
    have hc := List.all_eq_true.mp hall c.toNat (List.mem_range.mpr hascii)
    exact hown (Char.ofNat_toNat c ▸ hc)
  by_cases hdotted : c = '\u0130'
  · have hdots : settles '\u0130' = true := by decide +kernel
    exact hown (hdotted ▸ hdots)
  unfold lowerChar at h
  rw [if_neg hascii, if_neg hdotted, List.mem_singleton] at h
  cases himage : image? lowerRuns c.toNat with
  | none =>
      rw [himage] at h
      rw [h]
      exact lowerChar_of_image?_none himage hdotted
  | some image =>
      rw [himage] at h
      obtain ⟨hvalid, hne⟩ := isValidChar_of_image himage
      have hcode : d.toNat = image := by
        rw [h, Option.map_some, Option.getD_some, Char.ofNat, dif_pos hvalid]
        rfl
      refine lowerChar_of_image?_none (hcode.symm ▸ image?_of_image himage) ?_
      rintro rfl
      exact hne hcode.symm

theorem lowerChar_of_mem_lowerFrom {before text : List Char} {d : Char}
    (h : d ∈ lowerFrom before text) : lowerChar d = [d] := by
  induction text generalizing before with
  | nil => cases h
  | cons c rest ih =>
      rw [lowerFrom_cons, List.mem_append] at h
      rcases h with hhere | hbehind
      · unfold lowerAt at hhere
        split_ifs at hhere
        · rw [List.mem_singleton.mp hhere]
          decide +kernel
        · rw [List.mem_singleton.mp hhere]
          decide +kernel
        · exact lowerChar_of_mem_lowerChar hhere
      · exact ih hbehind

/-- What is written in small letters is compared as it is. -/
theorem lowerFrom_of_small {text : List Char} (h : ∀ c ∈ text, lowerChar c = [c])
    (before : List Char) : lowerFrom before text = text := by
  have hsigma : lowerChar sigma ≠ [sigma] := by decide +kernel
  induction text generalizing before with
  | nil => rfl
  | cons c rest ih =>
      obtain ⟨hhere, hbehind⟩ := List.forall_mem_cons.mp h
      have hplain : c ≠ sigma := fun heq => hsigma (heq ▸ hhere)
      rw [lowerFrom_cons, lowerAt, if_neg hplain, hhere, ih hbehind, List.singleton_append]

theorem lowerChars_of_sublist {part text : List Char} (h : part.Sublist (lowerChars text)) :
    lowerChars part = part :=
  lowerFrom_of_small (fun _ hmem => lowerChar_of_mem_lowerFrom (h.mem hmem)) []

end Unicode

/-!
## Keywords for letters in order
-/

namespace Keyword

/-- The keyword that asks for the letters of a text in their order. -/
def inOrder (text : String) : Keyword := { kind := .subsequence, text }

theorem inOrder_accepts_iff {text name : String} : (inOrder text).accepts name = true ↔
    (Unicode.lowerChars text.toList).Sublist (Unicode.lowerChars name.toList) :=
  isScattered_iff

/-- A name is accepted if and only if the small letters of the text are a subsequence of its own.
So a name that contains the text is accepted, and one that is accepted for a text is accepted for
every part of the text's small letters, with or without gaps. -/
theorem letters_in_order_iff (text name : String) :
    ((inOrder text).accepts name = true ↔
      (Unicode.lowerChars text.toList).Sublist (Unicode.lowerChars name.toList)) ∧
    (({ kind := .contains, text } : Keyword).accepts name = true →
      (inOrder text).accepts name = true) ∧
    ((inOrder text).accepts name = true → ∀ part : List Char,
      part.Sublist (Unicode.lowerChars text.toList) →
        (inOrder (String.ofList part)).accepts name = true) := by
  refine ⟨inOrder_accepts_iff, ?_, ?_⟩
  · intro hcontains
    have hoccurs : Unicode.lowerChars text.toList <:+: Unicode.lowerChars name.toList :=
      occursIn_iff.mp hcontains
    exact inOrder_accepts_iff.mpr hoccurs.sublist
  · intro haccepts part hpart
    rw [inOrder_accepts_iff, String.toList_ofList, Unicode.lowerChars_of_sublist hpart]
    exact hpart.trans (inOrder_accepts_iff.mp haccepts)

theorem letters_in_order_iff_widget :
    (inOrder "Wdgt").accepts "Widget" = true ∧
      (inOrder (String.ofList ['d', 't'])).accepts "Widget" = true := by
  have hlaw := letters_in_order_iff "Wdgt" "Widget"
  have haccepts := hlaw.1.mpr (by decide +kernel)
  exact ⟨haccepts, hlaw.2.2 haccepts ['d', 't'] (by decide +kernel)⟩

end Keyword
end AssemblyBrowser
