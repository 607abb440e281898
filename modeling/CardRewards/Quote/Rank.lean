import CardRewards.Quote.Basic

/-!
# Ranking quotes

Quotes are ranked for a display mode: those with a worth in the mode first, and within each group
by falling worth. Quotes that agree in both keep their order. Worths are compared by the total
order of amounts, so that every two of them compare.

In the requirements (§4.3) this is `rank`, and the worth of a quote is its estimate.
-/

namespace CardRewards

namespace Quote

variable {α : Type} [Amount α]

/-- Whether a quote may stand before another in a ranking for a mode. -/
def ranksBefore (mode : DisplayMode) (a b : Quote α) : Bool :=
  match a.isSupportedIn mode, b.isSupportedIn mode with
  | true, false => true
  | false, true => false
  | _, _ => Amount.ranksUpTo (b.worth mode) (a.worth mode)

/-- The quotes shown in a mode, ranked for it. -/
def rank (quotes : List (Quote α)) (mode : DisplayMode) : List (Quote α) :=
  (quotes.map (·.project mode)).mergeSort (ranksBefore mode)

end Quote

end CardRewards
