import Mathlib.Data.List.Forall2
import Mathlib.Data.List.ReduceOption

/-!
# Outcomes of computations

A computation that gives a value went through all of its steps. The lemmas here
take such a computation apart.
-/

namespace AssemblyBrowser
namespace Outcome

variable {ε α β : Type}

theorem ok_bind (a : α) (f : α → Except ε β) : (Except.ok a >>= f) = f a := rfl

theorem bind_eq_ok {x : Except ε α} {f : α → Except ε β} {b : β} :
    (x >>= f) = .ok b ↔ ∃ a, x = .ok a ∧ f a = .ok b := by
  cases x with
  | ok a => simp [bind, Except.bind]
  | error error => simp [bind, Except.bind]

theorem pure_eq_ok {a b : α} : (pure a : Except ε α) = .ok b ↔ a = b := by
  simp [pure, Except.pure]

theorem map_eq_ok {x : Except ε α} {f : α → β} {b : β} :
    x.map f = .ok b ↔ ∃ a, x = .ok a ∧ f a = b := by
  cases x with
  | ok a => simp [Except.map]
  | error error => simp [Except.map]

theorem exists_eq_ok {x : Except ε α} (h : x.toOption.isSome = true) : ∃ a, x = .ok a := by
  cases x with
  | ok a => exact ⟨a, rfl⟩
  | error error => cases h

theorem exists_of_any {x : Except ε α} {p : α → Bool} (h : x.toOption.any p = true) :
    ∃ a, x = .ok a ∧ p a = true := by
  cases x with
  | ok a => exact ⟨a, rfl, h⟩
  | error error => cases h

theorem eq_ok_of_toOption {x : Except ε α} {a : α} (h : x.toOption = some a) : x = .ok a := by
  cases x with
  | ok other => exact congrArg _ (Option.some.inj h)
  | error error => cases h

theorem map_eq_error {x : Except ε α} {f : α → β} {error : ε} :
    x.map f = .error error ↔ x = .error error := by
  cases x with
  | ok a => simp [Except.map]
  | error error => simp [Except.map]

theorem exists_map_eq_ok {x : Except ε α} {f : α → β} :
    (∃ b, x.map f = .ok b) ↔ ∃ a, x = .ok a := by
  cases x with
  | ok a => simp [Except.map]
  | error error => simp [Except.map]

/-- What follows a step does not matter if it always gives a value. -/
theorem exists_bind_eq_ok {x : Except ε α} {f : α → Except ε β}
    (hf : ∀ a, ∃ b, f a = .ok b) : (∃ b, (x >>= f) = .ok b) ↔ ∃ a, x = .ok a := by
  cases x with
  | ok a => exact ⟨fun _ => ⟨a, rfl⟩, fun _ => hf a⟩
  | error error => simp [bind, Except.bind]

/-- Doing the same for every item of a list gives a value for each. -/
theorem mapM_eq_ok {f : α → Except ε β} {items : List α} {values : List β} :
    items.mapM f = .ok values ↔
      List.Forall₂ (fun item value => f item = .ok value) items values := by
  induction items generalizing values with
  | nil =>
      rw [List.mapM_nil, pure_eq_ok, List.forall₂_nil_left_iff]
      exact eq_comm
  | cons item rest ih =>
      rw [List.mapM_cons, bind_eq_ok]
      constructor
      · rintro ⟨value, hvalue, hrest⟩
        rcases bind_eq_ok.mp hrest with ⟨others, hothers, hvalues⟩
        rw [← pure_eq_ok.mp hvalues]
        exact List.Forall₂.cons hvalue (ih.mp hothers)
      · intro hall
        cases hall with
        | cons hvalue hothers =>
            refine ⟨_, hvalue, bind_eq_ok.mpr ⟨_, ih.mpr hothers, rfl⟩⟩

/-- What is done for every item of a list is there at the place of the item. -/
theorem exists_getElem?_of_mapM {f : α → Except ε β} {items : List α} {values : List β}
    (h : items.mapM f = .ok values) {index : Nat} {item : α} (hat : items[index]? = some item) :
    ∃ value, values[index]? = some value ∧ f item = .ok value := by
  have hall := List.forall₂_iff_get.mp (mapM_eq_ok.mp h)
  obtain ⟨hindex, rfl⟩ := List.getElem?_eq_some_iff.mp hat
  have hvalue : index < values.length := hall.1 ▸ hindex
  exact ⟨values[index], List.getElem?_eq_getElem hvalue, hall.2 index hindex hvalue⟩

/-- What holds of the value for each item holds of all values. -/
theorem forall_of_mapM {P : β → Prop} {f : α → Except ε β}
    {items : List α} {values : List β} (h : items.mapM f = .ok values)
    (hitem : ∀ item value, f item = .ok value → P value) : ∀ value ∈ values, P value := by
  induction mapM_eq_ok.mp h with
  | nil => exact fun value hmem => absurd hmem List.not_mem_nil
  | cons hfirst hrest ih =>
      exact List.forall_mem_cons.mpr ⟨hitem _ _ hfirst, ih (mapM_eq_ok.mpr hrest)⟩

/-- Doing the same for every item of a list gives values if it gives one for each item. -/
theorem exists_mapM_eq_ok {f : α → Except ε β} {items : List α} :
    (∃ values, items.mapM f = .ok values) ↔ ∀ item ∈ items, ∃ value, f item = .ok value := by
  induction items with
  | nil => simp [pure_eq_ok]
  | cons item rest ih =>
      rw [List.forall_mem_cons, ← ih]
      constructor
      · rintro ⟨values, hvalues⟩
        cases mapM_eq_ok.mp hvalues with
        | cons hvalue hothers => exact ⟨⟨_, hvalue⟩, ⟨_, mapM_eq_ok.mpr hothers⟩⟩
      · rintro ⟨⟨value, hvalue⟩, ⟨others, hothers⟩⟩
        exact ⟨value :: others, mapM_eq_ok.mpr (List.Forall₂.cons hvalue (mapM_eq_ok.mp hothers))⟩

theorem bind_eq_error {x : Except ε α} {f : α → Except ε β} {error : ε} :
    (x >>= f) = .error error ↔ x = .error error ∨ ∃ a, x = .ok a ∧ f a = .error error := by
  cases x with
  | ok a => simp [bind, Except.bind]
  | error error => simp [bind, Except.bind]

/-- If doing the same for every item fails, it fails for one of them. -/
theorem mapM_eq_error {f : α → Except ε β} {items : List α} {error : ε}
    (h : items.mapM f = .error error) : ∃ item ∈ items, f item = .error error := by
  induction items with
  | nil => cases h
  | cons item rest ih =>
      rw [List.mapM_cons] at h
      rcases bind_eq_error.mp h with hitem | ⟨value, _, hrest⟩
      · exact ⟨item, List.mem_cons_self, hitem⟩
      · rcases bind_eq_error.mp hrest with hothers | ⟨others, _, hpure⟩
        · rcases ih hothers with ⟨other, hmem, herror⟩
          exact ⟨other, List.mem_cons_of_mem _ hmem, herror⟩
        · cases hpure

/-- What every step keeps is there after all of them. -/
theorem foldlM_keeps {P : β → Prop} {f : β → α → Except ε β} {items : List α} {start stop : β}
    (h : items.foldlM f start = .ok stop) (hstart : P start)
    (hstep : ∀ before item after, f before item = .ok after → P before → P after) : P stop := by
  induction items generalizing start with
  | nil =>
      rw [← pure_eq_ok.mp h]
      exact hstart
  | cons item rest ih =>
      rw [List.foldlM_cons] at h
      rcases bind_eq_ok.mp h with ⟨next, hnext, hrest⟩
      exact ih hrest (hstep start item next hnext hstart)

/-- Where each step reads something that does not depend on those before it, all of it can be read
first. -/
theorem foldlM_of_reads {γ : Type} {read : α → Except ε (Option β)}
    {link : γ → β → γ} {step : γ → α → Except ε γ} {items : List α} {start stop : γ}
    (hstep : ∀ before item,
      step before item = (read item).map fun part => part.elim before (link before))
    (h : items.foldlM step start = .ok stop) :
    ∃ parts, items.mapM read = .ok parts ∧ stop = parts.reduceOption.foldl link start := by
  induction items generalizing start with
  | nil => exact ⟨[], rfl, (pure_eq_ok.mp h).symm⟩
  | cons item rest ih =>
      rw [List.foldlM_cons, hstep] at h
      obtain ⟨next, hnext, hrest⟩ := bind_eq_ok.mp h
      obtain ⟨part, hpart, rfl⟩ := map_eq_ok.mp hnext
      obtain ⟨parts, hparts, hstop⟩ := ih hrest
      refine ⟨part :: parts, ?_, ?_⟩
      · rw [List.mapM_cons, hpart, ok_bind, hparts]
        rfl
      · rw [hstop]
        cases part <;> rfl

theorem bind_ok {x : Except ε α} {a : α} {f : α → Except ε β} {b : β} (hx : x = .ok a)
    (hf : f a = .ok b) : (x >>= f) = .ok b := by
  rw [hx, ok_bind, hf]

theorem mapM_of_forall {f : α → Except ε β} {g : α → β} {items : List α}
    (h : ∀ item ∈ items, f item = .ok (g item)) : items.mapM f = .ok (items.map g) := by
  rw [mapM_eq_ok, List.forall₂_map_right_iff, List.forall₂_same]
  exact h

theorem foldlM_of_forall {f : β → α → Except ε β} {g : β → α → β} {items : List α}
    (h : ∀ item ∈ items, ∀ b, f b item = .ok (g b item)) (start : β) :
    items.foldlM f start = .ok (items.foldl g start) := by
  induction items generalizing start with
  | nil => rfl
  | cons first rest ih =>
      rw [List.foldlM_cons, h first List.mem_cons_self, ok_bind, List.foldl_cons]
      exact ih (fun item hmem => h item (List.mem_cons_of_mem _ hmem)) _

end Outcome
end AssemblyBrowser
