import CardRewards.Ledger

/-!
# Generated counters

The keys of cards, missions and tier programs are made from an id between two texts. What stands
around the id tells the sorts apart, whatever the id is, and leaves nothing of it open: a generated
key has one sort and one id (`CounterSort.key_inj`). So no two of the counters that the program
generates are ever one: `CounterKey.generated_never_collide`.
-/

namespace CardRewards

/-- What a counter with a generated key counts. -/
inductive CounterSort where
  | cardSpend
  | missionTotal
  | missionEligible
  | tierReward
  | tierSpend
deriving DecidableEq, Repr

namespace CounterSort

/-- The key of this sort for an id. -/
def key (id : String) : CounterSort → CounterKey
  | cardSpend => .cardSpend id
  | missionTotal => .missionTotal id
  | missionEligible => .missionEligible id
  | tierReward => .tierReward id
  | tierSpend => .tierSpend id

/-- What stands before the id. -/
def opening : CounterSort → String
  | cardSpend => "card_spend:"
  | missionTotal | missionEligible => "mission:"
  | tierReward | tierSpend => "tier:"

/-- What stands after the id. -/
def ending : CounterSort → String
  | cardSpend => ""
  | missionTotal => ":total"
  | missionEligible => ":eligible"
  | tierReward => ":reward"
  | tierSpend => ":spend"

theorem text_key (s : CounterSort) (id : String) :
    (s.key id).text = s.opening ++ id ++ s.ending := by
  cases s with
  | cardSpend => exact String.append_empty.symm
  | missionTotal | missionEligible | tierReward | tierSpend => rfl

theorem toList_text_key (s : CounterSort) (id : String) :
    (s.key id).text.toList = s.opening.toList ++ (id.toList ++ s.ending.toList) := by
  rw [text_key, String.toList_append, String.toList_append, List.append_assoc]

/-- The first letter of a key is that of its opening. -/
theorem head?_text_key (s : CounterSort) (id : String) :
    (s.key id).text.toList.head? = s.opening.toList.head? := by
  rw [toList_text_key]
  cases s <;> rfl

/-- Behind any id an ending is known by its last letter but one. -/
theorem getElem?_reverse_ending {s : CounterSort} (h : s ≠ cardSpend) (id : List Char) :
    (id ++ s.ending.toList).reverse[1]? = s.ending.toList.reverse[1]? := by
  rw [List.reverse_append]
  cases s with
  | cardSpend => exact absurd rfl h
  | missionTotal | missionEligible | tierReward | tierSpend => rfl

theorem eq_of_key_eq {s t : CounterSort} {a b : String} (h : s.key a = t.key b) : s = t := by
  have hopening : s.opening.toList.head? = t.opening.toList.head? := by
    rw [← head?_text_key s a, ← head?_text_key t b, h]
  -- the first letter leaves a sort and perhaps another one, and their endings differ
  have hending : s ≠ cardSpend → t ≠ cardSpend → s.opening = t.opening →
      s.ending.toList.reverse[1]? = t.ending.toList.reverse[1]? := by
    intro hs ht heq
    have hchars : (s.key a).text.toList = (t.key b).text.toList := by rw [h]
    rw [toList_text_key, toList_text_key, heq] at hchars
    rw [← getElem?_reverse_ending hs a.toList, ← getElem?_reverse_ending ht b.toList,
      List.append_cancel_left hchars]
  revert hopening hending
  cases s <;> cases t <;> decide

/-- **A generated key has one sort and one id.** -/
theorem key_inj {s t : CounterSort} {a b : String} : s.key a = t.key b ↔ s = t ∧ a = b := by
  constructor
  · intro h
    obtain rfl := eq_of_key_eq h
    have hchars : (s.key a).text.toList = (s.key b).text.toList := by rw [h]
    rw [toList_text_key, toList_text_key] at hchars
    have hid := List.append_cancel_right (List.append_cancel_left hchars)
    exact ⟨rfl, String.toList_inj.mp hid⟩
  · rintro ⟨rfl, rfl⟩
    rfl

theorem key_ne {s t : CounterSort} (h : s ≠ t) (a b : String) : s.key a ≠ t.key b :=
  fun heq => h (key_inj.mp heq).1

theorem key_inj_right {s : CounterSort} {a b : String} : s.key a = s.key b ↔ a = b :=
  ⟨fun h => (key_inj.mp h).2, fun h => by rw [h]⟩

theorem key_injective (s : CounterSort) : Function.Injective (s.key ·) :=
  fun _ _ => key_inj_right.mp

/-- All sorts, in the order in which they are declared. -/
def all : List CounterSort := [cardSpend, missionTotal, missionEligible, tierReward, tierSpend]

/-- Keys of different sorts differ, whatever ids they are made from. -/
theorem pairwise_key_ne :
    (all.map fun s id => s.key id).Pairwise fun first second => ∀ a b, first a ≠ second b := by
  have hsorts : all.Pairwise (· ≠ ·) := by decide
  exact hsorts.map _ fun s t h => key_ne h

end CounterSort

/-- **Generated keys never collide**: of each of the five sorts every id has a key of its own, and
no key of one sort is a key of another, for any two ids. An id is any text, with colons or empty. -/
theorem CounterKey.generated_never_collide :
    (Function.Injective cardSpend ∧ Function.Injective missionTotal ∧
      Function.Injective missionEligible ∧ Function.Injective tierReward ∧
      Function.Injective tierSpend) ∧
    [cardSpend, missionTotal, missionEligible, tierReward, tierSpend].Pairwise
      fun first second => ∀ a b, first a ≠ second b := by
  refine ⟨⟨?_, ?_, ?_, ?_, ?_⟩, CounterSort.pairwise_key_ne⟩
  · exact CounterSort.key_injective .cardSpend
  · exact CounterSort.key_injective .missionTotal
  · exact CounterSort.key_injective .missionEligible
  · exact CounterSort.key_injective .tierReward
  · exact CounterSort.key_injective .tierSpend

end CardRewards
