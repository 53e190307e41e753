import Mathlib.Data.List.Induction
import AssemblyBrowser.Module.TypeName
import AssemblyBrowser.Proofs.Files.PathTexts

/-!
# Names without arities

The arity of a generic type is a mark and digits behind it at the end of a name. One
function takes the last mark of a name away if there are only digits behind it, or
nothing at all; the other one goes through a qualified name and leaves out each mark with
the digits behind it, wherever they stand. So they agree segment by segment exactly for
names in which a mark with a digit behind it begins an arity, and no segment ends in a
mark.
-/

namespace AssemblyBrowser

/-- In a name, each mark that has a digit behind it begins an arity at the end, and no mark is the
end of it. -/
def AritiesAtEnd (name : List Char) : Prop :=
  ∀ front behind, name = front ++ arityMark :: behind →
    behind ≠ [] ∧ (behind.head?.any Char.isDigit → behind.all Char.isDigit)

/-- A mark with a digit behind it stands in the name. -/
def HasNumberedMark (name : List Char) : Prop :=
  ∃ front digit behind, name = front ++ arityMark :: digit :: behind ∧ digit.isDigit

theorem arityMark_not_digit : arityMark.isDigit = false := by decide

theorem mark_not_mem_of_all {digits : List Char} (h : digits.all Char.isDigit) :
    arityMark ∉ digits := by
  intro hmem
  have hdigit := List.all_eq_true.mp h _ hmem
  rw [arityMark_not_digit] at hdigit
  cases hdigit

/-!
## Leaving out marks with digits
-/

/-- What stands in front of a character that is no digit is gone through on its own. -/
theorem stripAritiesFrom_append {c : Char} (hc : c.isDigit = false) (skipping : Bool)
    (front behind : List Char) :
    stripAritiesFrom skipping (front ++ c :: behind) =
      stripAritiesFrom skipping front ++ stripAritiesFrom false (c :: behind) := by
  induction front generalizing skipping with
  | nil =>
      rw [List.nil_append, stripAritiesFrom, stripAritiesFrom, stripAritiesFrom]
      simp [hc]
  | cons d rest ih =>
      have hhead : (rest ++ c :: behind).head?.any Char.isDigit = rest.head?.any Char.isDigit := by
        cases rest with
        | nil => simp [hc]
        | cons => rfl
      rw [List.cons_append, stripAritiesFrom, stripAritiesFrom, hhead, ih, ih]
      split
      · rfl
      · split
        · rfl
        · rfl

theorem stripAritiesFrom_digits {digits : List Char} (h : digits.all Char.isDigit) :
    stripAritiesFrom true digits = [] := by
  induction digits with
  | nil => rfl
  | cons digit rest ih =>
      rw [List.all_cons, Bool.and_eq_true] at h
      rw [stripAritiesFrom, if_pos (by simpa using h.1), ih h.2]

/-- Nothing is put into a name. -/
theorem stripAritiesFrom_sublist (skipping : Bool) (name : List Char) :
    (stripAritiesFrom skipping name).Sublist name := by
  induction name generalizing skipping with
  | nil => exact .slnil
  | cons c rest ih =>
      rw [stripAritiesFrom]
      split
      · exact (ih true).cons c
      · split
        · exact (ih true).cons c
        · exact (ih false).cons_cons c

/-- A mark with digits behind it is left out. -/
theorem stripAritiesFrom_numbered {digit : Char} (h : digit.isDigit) (front behind : List Char) :
    stripAritiesFrom false (front ++ arityMark :: digit :: behind) =
      stripAritiesFrom false front ++ stripAritiesFrom true behind := by
  rw [stripAritiesFrom_append arityMark_not_digit, stripAritiesFrom, if_neg (by simp),
    if_pos ⟨rfl, h⟩, stripAritiesFrom, if_pos (by simpa using h)]

/-- A mark that is the end of the name stays. -/
theorem stripAritiesFrom_lone (front : List Char) :
    stripAritiesFrom false (front ++ [arityMark]) =
      stripAritiesFrom false front ++ [arityMark] := by
  rw [stripAritiesFrom_append arityMark_not_digit]
  rfl

theorem stripAritiesFrom_eq_self_iff {name : List Char} :
    stripAritiesFrom false name = name ↔ ¬ HasNumberedMark name := by
  constructor
  · rintro hsame ⟨front, digit, behind, rfl, hdigit⟩
    have hfront := (stripAritiesFrom_sublist false front).length_le
    have hbehind := (stripAritiesFrom_sublist true behind).length_le
    have hlength := congrArg List.length hsame
    rw [stripAritiesFrom_numbered hdigit] at hlength
    simp only [List.length_append, List.length_cons] at hlength
    omega
  · intro hnone
    induction name with
    | nil => rfl
    | cons c rest ih =>
        rw [stripAritiesFrom, if_neg (by simp), if_neg, ih]
        · rintro ⟨front, digit, behind, rfl, hdigit⟩
          exact hnone ⟨c :: front, digit, behind, rfl, hdigit⟩
        · rintro ⟨rfl, hhead⟩
          cases rest with
          | nil => simp at hhead
          | cons digit behind => exact hnone ⟨[], digit, behind, rfl, hhead⟩

/-- A mark at the end is never made up for by something left out in front of it. -/
theorem stripAritiesFrom_lone_ne (front : List Char) :
    stripAritiesFrom false front ++ [arityMark] ≠ front := by
  induction front using List.reverseRecOn with
  | nil => simp
  | append_singleton front c ih =>
      intro hsame
      obtain ⟨hfront, hmark⟩ := List.append_inj' hsame rfl
      obtain rfl := List.cons.inj hmark |>.1
      rw [stripAritiesFrom_lone] at hfront
      exact ih hfront

/-!
## Taking away the last mark
-/

theorem stripArityChars_of_digits {front digits : List Char} (h : digits.all Char.isDigit) :
    stripArityChars (front ++ arityMark :: digits) = front := by
  have hdigits : ∀ c ∈ digits.reverse, c.isDigit = true := fun c hc =>
    List.all_eq_true.mp h c (List.mem_reverse.mp hc)
  have hlast : (front ++ arityMark :: digits).reverse.dropWhile Char.isDigit =
      arityMark :: front.reverse := by
    rw [List.reverse_append, List.reverse_cons, List.append_assoc,
      List.dropWhile_append_of_pos hdigits, List.singleton_append,
      List.dropWhile_cons_of_neg (by simp [arityMark_not_digit])]
  rw [stripArityChars, hlast]
  simp

/-- A name ends in a mark and digits, or it is left as it is. -/
theorem stripArityChars_cases (name : List Char) :
    (∃ front digits, name = front ++ arityMark :: digits ∧ digits.all Char.isDigit) ∨
      ((∀ front digits, name = front ++ arityMark :: digits → ¬ digits.all Char.isDigit) ∧
        stripArityChars name = name) := by
  by_cases hends : ∃ front digits, name = front ++ arityMark :: digits ∧ digits.all Char.isDigit
  · exact .inl hends
  · refine .inr ⟨fun front digits hname hdigits => hends ⟨front, digits, hname, hdigits⟩, ?_⟩
    unfold stripArityChars
    split
    case h_1 c rest hdrop =>
      split
      case isTrue hmark =>
        refine absurd ⟨rest.reverse, (name.reverse.takeWhile Char.isDigit).reverse, ?_, ?_⟩ hends
        · have hname := List.takeWhile_append_dropWhile (p := Char.isDigit) (l := name.reverse)
          rw [hdrop, hmark] at hname
          have hback := congrArg List.reverse hname
          rw [List.reverse_reverse, List.reverse_append, List.reverse_cons, List.append_assoc]
            at hback
          exact hback.symm
        · rw [List.all_reverse]
          exact List.all_takeWhile
      case isFalse => rfl
    case h_2 => rfl

/-!
## Both on one segment
-/

/-- Behind the mark of an arity at the end there are only digits, so a numbered mark is that one or
stands in front of it. -/
theorem aritiesAtEnd_digits_iff {front digits : List Char} (hne : digits ≠ [])
    (h : digits.all Char.isDigit) :
    AritiesAtEnd (front ++ arityMark :: digits) ↔ ¬ HasNumberedMark front := by
  constructor
  · rintro hends ⟨before, digit, between, rfl, hdigit⟩
    have hbehind := (hends before (digit :: between ++ arityMark :: digits) (by simp)).2 hdigit
    exact mark_not_mem_of_all hbehind (by simp)
  · intro hnone before behind heq
    rcases List.append_eq_append_iff.mp heq with ⟨added, hbefore, hadded⟩ | ⟨added, hfront, hadded⟩
    · cases added with
      | nil =>
          obtain rfl := (List.cons.inj hadded).2
          exact ⟨hne, fun _ => h⟩
      | cons c rest =>
          have hdigits := (List.cons.inj hadded).2
          exact absurd (hdigits ▸ by simp) (mark_not_mem_of_all h)
    · cases added with
      | nil =>
          obtain rfl := (List.cons.inj hadded).2
          exact ⟨hne, fun _ => h⟩
      | cons c rest =>
          obtain ⟨rfl, rfl⟩ := List.cons.inj hadded
          refine ⟨by simp, fun hhead => ?_⟩
          cases rest with
          | nil =>
              have hdigit : arityMark.isDigit = true := hhead
              rw [arityMark_not_digit] at hdigit
              cases hdigit
          | cons digit between =>
              exact absurd ⟨before, digit, between, hfront, hhead⟩ hnone

/-- The two functions agree on a segment exactly if its marks are those of arities. -/
theorem stripArityChars_eq_iff (name : List Char) :
    stripAritiesFrom false name = stripArityChars name ↔ AritiesAtEnd name := by
  rcases stripArityChars_cases name with ⟨front, digits, rfl, hdigits⟩ | ⟨hends, hsame⟩
  · rw [stripArityChars_of_digits hdigits]
    cases digits with
    | nil =>
        rw [stripAritiesFrom_lone]
        exact ⟨fun h => absurd h (stripAritiesFrom_lone_ne front),
          fun h => absurd rfl (h front [] rfl).1⟩
    | cons digit rest =>
        have hboth := hdigits
        rw [List.all_cons, Bool.and_eq_true] at hboth
        rw [aritiesAtEnd_digits_iff (List.cons_ne_nil _ _) hdigits,
          stripAritiesFrom_numbered hboth.1, stripAritiesFrom_digits hboth.2, List.append_nil,
          stripAritiesFrom_eq_self_iff]
  · rw [hsame, stripAritiesFrom_eq_self_iff]
    constructor
    · intro hnone front behind heq
      refine ⟨?_, fun hhead => ?_⟩
      · rintro rfl
        exact hends front [] heq rfl
      · cases behind with
        | nil => simp at hhead
        | cons digit rest => exact absurd ⟨front, digit, rest, heq, hhead⟩ hnone
    · rintro hall ⟨front, digit, behind, heq, hdigit⟩
      exact hends front _ heq ((hall front _ heq).2 hdigit)

theorem stripArityChars_sublist (name : List Char) : (stripArityChars name).Sublist name := by
  rcases stripArityChars_cases name with ⟨front, digits, rfl, hdigits⟩ | ⟨-, hsame⟩
  · rw [stripArityChars_of_digits hdigits]
    exact List.sublist_append_left _ _
  · rw [hsame]

/-!
## Whole names
-/

/-- A qualified name is gone through segment by segment. -/
theorem stripAritiesFrom_eq_intercalate (name : List Char) :
    stripAritiesFrom false name =
      ['.'].intercalate ((Path.splitChars (· == '.') name).map (stripAritiesFrom false)) := by
  induction hlength : name.length using Nat.strongRecOn generalizing name with
  | ind length ih =>
      subst hlength
      by_cases hdot : '.' ∈ name
      · obtain ⟨first, rest, rfl, hfirst⟩ := List.eq_append_cons_of_mem hdot
        have hsegment : Path.splitChars (· == '.') first = [first] :=
          Path.splitChars_of_forall fun c hc => beq_eq_false_iff_ne.mpr fun h => hfirst (h ▸ hc)
        obtain ⟨next, others, hsplit⟩ :=
          List.exists_cons_of_ne_nil (Path.splitChars_ne_nil (· == '.') rest)
        have hparts : Path.splitChars (· == '.') (first ++ '.' :: rest) = first :: next :: others :=
          (Path.splitChars_append rfl first rest).trans (by rw [hsegment, hsplit]; rfl)
        have hshorter : rest.length < (first ++ '.' :: rest).length := by
          rw [List.length_append, List.length_cons]
          omega
        have hrest := ih rest.length hshorter rest rfl
        have hkept :
            stripAritiesFrom false ('.' :: rest) = '.' :: stripAritiesFrom false rest := rfl
        rw [stripAritiesFrom_append (by decide), hkept, hrest, hsplit, hparts, List.map_cons,
          List.map_cons, List.map_cons, List.intercalate_cons_cons, List.append_assoc]
        rfl
      · have hsegment : Path.splitChars (· == '.') name = [name] :=
          Path.splitChars_of_forall fun c hc => beq_eq_false_iff_ne.mpr fun h => hdot (h ▸ hc)
        rw [hsegment, List.map_singleton, List.intercalate_singleton]

theorem intercalate_dots_injective {first second : List (List Char)} (hne : first ≠ [])
    (hnonempty : second ≠ []) (hdots : ∀ segment ∈ first, '.' ∉ segment)
    (hnone : ∀ segment ∈ second, '.' ∉ segment)
    (h : ['.'].intercalate first = ['.'].intercalate second) : first = second := by
  rw [← List.splitOn_intercalate '.' hdots hne, h, List.splitOn_intercalate '.' hnone hnonempty]

theorem dot_not_mem_of_sublist {name segment kept : List Char}
    (hsegment : segment ∈ Path.splitChars (· == '.') name) (h : kept.Sublist segment) :
    '.' ∉ kept := by
  intro hdot
  have hseparator := Path.separator_of_mem_splitChars hsegment (h.subset hdot)
  cases hseparator

/-- When leaving out all arities of a qualified name is the same as taking away the arity of each
of its segments: exactly if in each segment the marks with a digit behind them begin an arity at
the end, and no mark is the end. Of a name without dots this is said of the name itself. -/
theorem arities_agree_iff (name : String) :
    (stripArities name = String.intercalate "." ((Path.split (· == '.') name).map stripArity) ↔
      ∀ segment ∈ Path.split (· == '.') name, AritiesAtEnd segment.toList) ∧
    ('.' ∉ name.toList →
      (stripArities name = stripArity name ↔ AritiesAtEnd name.toList)) := by
  constructor
  · have hjoined : (String.intercalate "." ((Path.split (· == '.') name).map stripArity)).toList =
        ['.'].intercalate ((Path.splitChars (· == '.') name.toList).map stripArityChars) := by
      rw [String.toList_intercalate, Path.split, List.map_map, List.map_map]
      refine congrArg (['.'].intercalate ·) (List.map_congr_left fun segment _ => ?_)
      simp [stripArity]
    have hnonempty := Path.splitChars_ne_nil (· == '.') name.toList
    rw [← String.toList_inj, hjoined, stripArities, String.toList_ofList,
      stripAritiesFrom_eq_intercalate]
    constructor
    · intro hsame segment hsegment
      have hmaps := intercalate_dots_injective (by simpa using hnonempty) (by simpa using hnonempty)
        (List.forall_mem_map.mpr fun part hpart =>
          dot_not_mem_of_sublist hpart (stripAritiesFrom_sublist false part))
        (List.forall_mem_map.mpr fun part hpart =>
          dot_not_mem_of_sublist hpart (stripArityChars_sublist part)) hsame
      obtain ⟨part, hpart, rfl⟩ := List.mem_map.mp hsegment
      rw [String.toList_ofList]
      exact (stripArityChars_eq_iff part).mp (List.map_inj_left.mp hmaps part hpart)
    · intro hends
      refine congrArg (['.'].intercalate ·) (List.map_congr_left fun part hpart => ?_)
      have hpartEnds := hends _ (List.mem_map_of_mem hpart)
      rw [String.toList_ofList] at hpartEnds
      exact (stripArityChars_eq_iff part).mpr hpartEnds
  · intro _
    rw [← String.toList_inj, stripArities, stripArity, String.toList_ofList, String.toList_ofList]
    exact stripArityChars_eq_iff name.toList

theorem arities_agree_iff_box :
    '.' ∉ "Box`1".toList ∧ stripArities "Box`1" = "Box" ∧
      (stripArities "Box`1" = stripArity "Box`1" ↔ AritiesAtEnd "Box`1".toList) :=
  ⟨by decide, by decide +kernel, (arities_agree_iff "Box`1").2 (by decide)⟩

/-- A mark alone is taken away, but not left out; digits in front of other characters are left out,
but not taken away. -/
theorem lone_mark_taken_away :
    stripArity "Odd`" = "Odd" ∧ stripArities "Odd`" = "Odd`" ∧
      stripArity "Box`1x" = "Box`1x" ∧ stripArities "Box`1x" = "Boxx" ∧
      ¬ ∀ name, stripArities name =
        String.intercalate "." ((Path.split (· == '.') name).map stripArity) := by
  refine ⟨by decide +kernel, by decide +kernel, by decide +kernel, by decide +kernel, fun h => ?_⟩
  exact absurd (h "Odd`") (by decide +kernel)

end AssemblyBrowser
