import Mathlib.Data.List.Find

/-!
# The first with a property

Many lists of a scheme are searched from the front, and the first element that fits decides: the
rules of a card, the product lines that a card may belong to. `FirstIn` says which element that is,
and `FirstWith` what it has, both by a split of the list with nothing that fits before it. The
searches of the standard library find just these.
-/

namespace CardRewards

/-- The first element of a list that has a property. -/
def FirstIn {β : Type} (l : List β) (P : β → Prop) (x : β) : Prop :=
  ∃ before after, l = before ++ x :: after ∧ P x ∧ ∀ y ∈ before, ¬ P y

/-- What the first element of a list has that has anything. -/
def FirstWith {β γ : Type} (l : List β) (Q : β → γ → Prop) (y : γ) : Prop :=
  ∃ x, FirstIn l (fun x => ∃ y, Q x y) x ∧ Q x y

variable {β γ : Type} {l : List β} {P : β → Prop}

theorem FirstIn.mem {x : β} (h : FirstIn l P x) : x ∈ l := by
  obtain ⟨before, after, rfl, -, -⟩ := h
  exact List.mem_append_right before (List.mem_cons_self ..)

theorem FirstIn.holds {x : β} (h : FirstIn l P x) : P x := by
  obtain ⟨before, after, -, hx, -⟩ := h
  exact hx

theorem find?_eq_some_iff_firstIn {p : β → Bool} (hp : ∀ x, p x = true ↔ P x) {x : β} :
    l.find? p = some x ↔ FirstIn l P x := by
  rw [List.find?_eq_some_iff_append]
  constructor
  · rintro ⟨hx, before, after, heq, hbefore⟩
    refine ⟨before, after, heq, (hp x).mp hx, ?_⟩
    intro y hy hPy
    have hnot := hbefore y hy
    rw [(hp y).mpr hPy] at hnot
    cases hnot
  · rintro ⟨before, after, heq, hx, hbefore⟩
    refine ⟨(hp x).mpr hx, before, after, heq, ?_⟩
    intro y hy
    cases hpy : p y with
    | false => rfl
    | true => exact absurd ((hp y).mp hpy) (hbefore y hy)

theorem findSome?_eq_some_iff_firstWith {f : β → Option γ} {Q : β → γ → Prop}
    (hf : ∀ x y, f x = some y ↔ Q x y) {y : γ} : l.findSome? f = some y ↔ FirstWith l Q y := by
  rw [List.findSome?_eq_some_iff]
  constructor
  · rintro ⟨before, x, after, heq, hx, hbefore⟩
    refine ⟨x, ⟨before, after, heq, ⟨y, (hf x y).mp hx⟩, ?_⟩, (hf x y).mp hx⟩
    rintro z hz ⟨y', hy'⟩
    have hsome := (hf z y').mpr hy'
    rw [hbefore z hz] at hsome
    cases hsome
  · rintro ⟨x, ⟨before, after, heq, -, hbefore⟩, hx⟩
    refine ⟨before, x, after, heq, (hf x y).mpr hx, ?_⟩
    intro z hz
    cases hfz : f z with
    | none => rfl
    | some y' => exact absurd ⟨y', (hf z y').mp hfz⟩ (hbefore z hz)

theorem findSome?_eq_none_iff_forall {f : β → Option γ} {Q : β → γ → Prop}
    (hf : ∀ x y, f x = some y ↔ Q x y) : l.findSome? f = none ↔ ∀ x ∈ l, ∀ y, ¬ Q x y := by
  rw [List.findSome?_eq_none_iff]
  refine forall₂_congr fun x _ => ?_
  rw [Option.eq_none_iff_forall_ne_some]
  exact forall_congr' fun y => not_congr (hf x y)

end CardRewards
