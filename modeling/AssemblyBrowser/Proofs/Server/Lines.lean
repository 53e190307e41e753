import Mathlib.Tactic.SplitIfs
import AssemblyBrowser.CommandLine.Server

/-!
# Lines

A JSON value in the compact layout has no line break, whatever texts it holds, so
a response is one line.
-/

namespace AssemblyBrowser

/-- Whether characters stay on one line. -/
def OneLine (chars : List Char) : Prop := '\n' ∉ chars

instance (chars : List Char) : Decidable (OneLine chars) :=
  inferInstanceAs (Decidable (¬ _))

namespace OneLine

theorem append {first second : List Char} (hfirst : OneLine first) (hsecond : OneLine second) :
    OneLine (first ++ second) := by
  rw [OneLine, List.mem_append]
  exact not_or.mpr ⟨hfirst, hsecond⟩

theorem cons {c : Char} {rest : List Char} (hc : c ≠ '\n') (hrest : OneLine rest) :
    OneLine (c :: rest) := by
  rw [OneLine, List.mem_cons]
  exact not_or.mpr ⟨hc.symm, hrest⟩

theorem of_subset {first second : List Char} (h : OneLine second) (hsubset : first ⊆ second) :
    OneLine first :=
  fun hmem => h (hsubset hmem)

theorem toDigits (n : Nat) : OneLine (Nat.toDigits 10 n) := by
  intro hmem
  have hdigit := Nat.isDigit_of_mem_toDigits (by decide) (by decide) hmem
  cases hdigit

theorem replicate_zero (n : Nat) : OneLine (List.replicate n '0') := by
  intro hmem
  cases List.eq_of_mem_replicate hmem

theorem toString_nat (n : Nat) : OneLine (toString n).toList := by
  rw [Nat.toString_eq_repr, Nat.repr, String.toList_ofList]
  exact toDigits n

theorem toString_int (n : Int) : OneLine (toString n).toList := by
  cases n with
  | ofNat n => exact toString_nat n
  | negSucc n =>
      have htext : (toString (Int.negSucc n)).toList = '-' :: (toString (n + 1)).toList := by
        show ("-" ++ Nat.repr (n + 1)).toList = _
        rw [String.toList_append]
        rfl
      rw [htext]
      exact cons (by decide) (toString_nat (n + 1))

end OneLine

theorem Decimal.Scientific.oneLine_positional (s : Scientific) : OneLine s.positional.toList := by
  unfold positional
  cases s.exponent with
  | ofNat e =>
      simp only [String.toList_ofList]
      exact (OneLine.toDigits _).append (OneLine.replicate_zero _)
  | negSucc e =>
      simp only [String.toList_ofList]
      have hpadded := (OneLine.replicate_zero (e + 1 + 1 - (Nat.toDigits 10 s.digits).length)).append
        (OneLine.toDigits s.digits)
      exact (hpadded.of_subset (List.take_subset _ _)).append
        (.cons (by decide) (hpadded.of_subset (List.drop_subset _ _)))

namespace Json

theorem oneLine_realText (bits : UInt64) : OneLine (realText bits).toList := by
  unfold realText
  split
  · decide
  · decide
  · rename_i negative mantissa exponent narrowBelow _
    have hsign : OneLine (if negative then "-" else "").toList := by cases negative <;> decide
    have htail (digits : List Char) (h : OneLine digits) :
        OneLine (if digits.length = 1 then [] else '.' :: digits.drop 1) := by
      split
      · exact List.not_mem_nil
      · exact .cons (by decide) (h.of_subset (List.drop_subset _ _))
    have hdigits := OneLine.toDigits (Decimal.shortest mantissa exponent narrowBelow).digits
    rw [String.toList_append]
    refine hsign.append ?_
    split
    · decide
    · split
      · rw [String.toList_append]
        exact (Decimal.Scientific.oneLine_positional _).append (by decide)
      · split
        · exact Decimal.Scientific.oneLine_positional _
        · simp only [String.toList_append, String.toList_ofList]
          exact (((hdigits.of_subset (List.take_subset _ _)).append (htail _ hdigits)).append
            (by decide)).append (OneLine.toString_int _)

theorem hexDigit_ne_break {n : Nat} (h : n < 16) : hexDigit n ≠ '\n' := by
  revert n
  decide

theorem oneLine_escapeChar (c : Char) : OneLine (escapeChar c) := by
  unfold escapeChar
  split_ifs with hquote hslash hbreak hreturn htab hback hfeed hcontrol
  · decide
  · decide
  · decide
  · decide
  · decide
  · decide
  · decide
  · have hhigh := hexDigit_ne_break (show c.toNat / 16 < 16 by omega)
    have hlow := hexDigit_ne_break (show c.toNat % 16 < 16 by omega)
    have hstart : OneLine ['\\', 'u', '0', '0'] := by decide
    exact hstart.append (.cons hhigh (.cons hlow List.not_mem_nil))
  · exact .cons hbreak List.not_mem_nil

theorem oneLine_quote (text : String) : OneLine (quote text).toList := by
  rw [quote, String.toList_ofList]
  refine .append (.cons (by decide) ?_) (by decide)
  intro hmem
  rcases List.mem_flatMap.mp hmem with ⟨c, _, hc⟩
  exact oneLine_escapeChar c hc

mutual

theorem oneLine_compact (json : Json) : OneLine json.compact.toList := by
  cases json with
  | null => decide
  | boolean value => cases value <;> decide
  | whole value => exact OneLine.toString_int value
  | real bits => exact oneLine_realText bits
  | text value => exact oneLine_quote value
  | array elements =>
      rw [compact, String.toList_append, String.toList_append]
      exact (OneLine.append (by decide) (oneLine_compactElements elements)).append (by decide)
  | object members =>
      rw [compact, String.toList_append, String.toList_append]
      exact (OneLine.append (by decide) (oneLine_compactMembers members)).append (by decide)

theorem oneLine_compactElements (elements : List Json) :
    OneLine (compactElements elements).toList := by
  match elements with
  | [] => exact List.not_mem_nil
  | [json] => exact oneLine_compact json
  | json :: next :: rest =>
      rw [compactElements, String.toList_append, String.toList_append]
      · exact ((oneLine_compact json).append (by decide)).append
          (oneLine_compactElements (next :: rest))
      · simp

theorem oneLine_compactMembers (members : List (String × Json)) :
    OneLine (compactMembers members).toList := by
  match members with
  | [] => exact List.not_mem_nil
  | [(name, json)] =>
      rw [compactMembers, String.toList_append, String.toList_append]
      exact ((oneLine_quote name).append (by decide)).append (oneLine_compact json)
  | (name, json) :: next :: rest =>
      rw [compactMembers]
      · simp only [String.toList_append]
        exact ((((oneLine_quote name).append (by decide)).append (oneLine_compact json)).append
          (by decide)).append (oneLine_compactMembers (next :: rest))
      · simp

end

end Json
end AssemblyBrowser
