import CardRewards.Proofs.Quote.Display

/-!
# There is one ranking

A ranking of quotes for a mode shows each of them in the mode (`Quote.ShownIn`), sorts them by what
they show and keeps those that show the same in their order (`Quote.SortsStably`). This leaves no
choice: what a quote shows in a mode is fixed, and a list is known by the sequence of its keys and
by what it has of each key (`eq_of_map_eq_of_filter_eq`), of which the first is fixed by sorting and
the second by keeping the order. So whatever is such a list is what ranking gives, for all worths
down to their bits (`Quote.ranks_iff_eq_rank`).

A list that has been ranked for the mode already is its own ranking, so ranking it again changes
nothing. Ranking it for another mode forgets the first one, up to the order of ties:
`Quote.rank_unique_stable_sort`.
-/

namespace CardRewards

/-- Lists with the same sequence of keys, and for each key the same elements in the same order, are
the same. -/
theorem eq_of_map_eq_of_filter_eq {β κ : Type} [DecidableEq κ] (key : β → κ) :
    ∀ {l l' : List β}, l.map key = l'.map key →
      (∀ k, l.filter (key · = k) = l'.filter (key · = k)) → l = l'
  | [], [], _, _ => rfl
  | x :: rest, y :: rest', hmap, hfilter => by
    obtain ⟨hkey, htail⟩ := List.cons.inj hmap
    -- the heads have one key and come first among the elements of that key
    have hheads := hfilter (key x)
    rw [List.filter_cons_of_pos (by simp), List.filter_cons_of_pos (by simp [hkey])] at hheads
    obtain ⟨rfl, hsame⟩ := List.cons.inj hheads
    refine congrArg (x :: ·) (eq_of_map_eq_of_filter_eq key htail fun k => ?_)
    by_cases hk : key x = k
    · rw [← hk]
      exact hsame
    · have hrest := hfilter k
      rwa [List.filter_cons_of_neg (by simpa using hk),
        List.filter_cons_of_neg (by simpa using hk)] at hrest

namespace Quote

variable {mode : DisplayMode} {quotes given ranked ranked' : List (Quote Binary64)}
  {q shown : Quote Binary64}

/-! ## What a quote shows -/

/-- A quote is another one shown in a mode: what it shows is the worth in this mode and why there is
none, and nothing else is different. -/
structure ShownIn (mode : DisplayMode) (q shown : Quote Binary64) : Prop where
  displayMode : shown.displayMode = mode
  displayValue : shown.displayValue = if mode = .cash then q.cashValue else q.milesValue
  unconverted : q.conversion = none → shown.noWorth = some (.missingConversion q.currency)
  converted : ∀ c, q.conversion = some c →
    shown.noWorth =
      if (if mode = .cash then c.cashPerUnit else c.milesPerUnit).isZero then
        some (.zeroConversion mode)
      else none
  others : q.SameUpToMode shown

theorem shownIn_project (q : Quote Binary64) (mode : DisplayMode) :
    ShownIn mode q (q.project mode) where
  displayMode := rfl
  displayValue := by cases mode <;> rfl
  unconverted hnone := by
    show q.noWorthIn mode = _
    rw [noWorthIn, hnone]
  converted c hc := by
    show q.noWorthIn mode = _
    rw [noWorthIn, hc]
    cases mode <;> rfl
  others := q.sameUpToMode_project mode

/-- There is one way to show a quote in a mode. -/
theorem ShownIn.unique {shown' : Quote Binary64} (h : ShownIn mode q shown)
    (h' : ShownIn mode q shown') : shown = shown' := by
  have hnoWorth : shown.noWorth = shown'.noWorth := by
    cases hconversion : q.conversion with
    | none => rw [h.unconverted hconversion, h'.unconverted hconversion]
    | some c => rw [h.converted c hconversion, h'.converted c hconversion]
  have hothers := h.others
  have hothers' := h'.others
  rw [Quote.SameUpToMode, h.displayMode, h.displayValue, hnoWorth] at hothers
  rw [Quote.SameUpToMode, h'.displayMode, h'.displayValue] at hothers'
  exact hothers.trans hothers'.symm

theorem shownIn_iff : ShownIn mode q shown ↔ shown = q.project mode := by
  constructor
  · intro h
    exact h.unique (shownIn_project q mode)
  · rintro rfl
    exact shownIn_project q mode

theorem forall₂_shownIn_iff :
    List.Forall₂ (ShownIn mode) quotes given ↔ given = quotes.map (·.project mode) := by
  have hrelation : ShownIn mode = fun q shown => q.project mode = shown := by
    funext q shown
    exact propext (shownIn_iff.trans eq_comm)
  rw [hrelation, ← List.forall₂_map_left_iff (R := Eq), List.forall₂_eq_eq_eq, eq_comm]

/-! ## Sorting by it -/

/-- What a quote is ranked by, as it shows it. -/
def shownStanding (q : Quote Binary64) : Bool × Binary64 := (q.noWorth.isNone, q.displayValue)

/-- In the mode that it is shown in, a quote shows its standing. -/
theorem standing_project (q : Quote Binary64) (mode : DisplayMode) :
    standing mode (q.project mode) = (q.project mode).shownStanding := rfl

/-- A list has given quotes sorted by what they show. -/
structure SortsStably (given ranked : List (Quote Binary64)) : Prop where
  /-- It has the same quotes, each as often as it is given. -/
  perm : ranked.Perm given
  /-- Quotes with a worth come before those without, and in both groups no worth rises. -/
  sorted : ranked.Pairwise fun q r =>
    (r.noWorth.isNone = true → q.noWorth.isNone = true) ∧
      (q.noWorth.isNone = r.noWorth.isNone → r.displayValue.totalLe q.displayValue = true)
  /-- Quotes that agree in both keep their order. -/
  stable : ∀ supported worth,
    ranked.filter (fun q => q.noWorth.isNone = supported ∧ q.displayValue = worth) =
      given.filter fun q => q.noWorth.isNone = supported ∧ q.displayValue = worth

/-- **There is one list that has given quotes sorted.** -/
theorem SortsStably.unique (h : SortsStably given ranked) (h' : SortsStably given ranked') :
    ranked = ranked' := by
  have hkeys : ranked.map shownStanding = ranked'.map shownStanding :=
    List.Perm.eq_of_pairwise (fun _ _ _ _ => standsUpTo_antisymm)
      (List.pairwise_map.mpr h.sorted) (List.pairwise_map.mpr h'.sorted)
      ((h.perm.trans h'.perm.symm).map _)
  refine eq_of_map_eq_of_filter_eq shownStanding hkeys fun k => ?_
  obtain ⟨supported, worth⟩ := k
  simp only [shownStanding, Prod.mk.injEq]
  exact (h.stable supported worth).trans (h'.stable supported worth).symm

/-- A list ranks quotes for a mode: it has them as they are shown in the mode, sorted. -/
def Ranks (mode : DisplayMode) (quotes ranked : List (Quote Binary64)) : Prop :=
  ∃ given, List.Forall₂ (ShownIn mode) quotes given ∧ SortsStably given ranked

/-! ## Ranking -/

/-- A quote of a ranking shows its standing. -/
theorem standing_of_mem_rank (h : q ∈ rank quotes mode) : standing mode q = q.shownStanding := by
  obtain ⟨q', -, rfl⟩ := List.mem_map.mp ((perm_rank quotes mode).mem_iff.mp h)
  exact standing_project q' mode

/-- Ranking sorts the quotes as they are shown in the mode. -/
theorem sortsStably_rank (quotes : List (Quote Binary64)) (mode : DisplayMode) :
    SortsStably (quotes.map (·.project mode)) (rank quotes mode) where
  perm := perm_rank quotes mode
  sorted := by
    refine (pairwise_rank Binary64.rankOrder quotes mode).imp_of_mem fun {q r} hq hr hbefore => ?_
    have hstands : StandsUpTo (standing mode q) (standing mode r) := ranksBefore_iff.mp hbefore
    rw [standing_of_mem_rank hq, standing_of_mem_rank hr] at hstands
    exact hstands
  stable supported worth := by
    -- the quotes of both lists show their standing, and those of one standing keep their order
    have hkept : (rank quotes mode).filter (fun q => standing mode q = (supported, worth)) =
        (quotes.map (·.project mode)).filter fun q => standing mode q = (supported, worth) := by
      refine filter_rank Binary64.rankOrder (fun q r hq hr => ?_) quotes
      have hsame : standing mode q = standing mode r :=
        (of_decide_eq_true hq).trans (of_decide_eq_true hr).symm
      obtain ⟨hsupported, hworth⟩ := Prod.mk.inj hsame
      rw [ranksBefore_iff, hsupported, hworth]
      exact ⟨id, fun _ => Binary64.totalLe_refl _⟩
    have hshown : ∀ q ∈ rank quotes mode,
        decide (standing mode q = (supported, worth)) =
          decide (q.noWorth.isNone = supported ∧ q.displayValue = worth) := fun q hq => by
      refine decide_eq_decide.mpr ?_
      rw [standing_of_mem_rank hq, shownStanding, Prod.mk.injEq]
    rw [← List.filter_congr hshown, hkept]
    exact List.filter_congr fun q hq => hshown q ((perm_rank quotes mode).mem_iff.mpr hq)

/-- Ranking is the one way to rank. -/
theorem ranks_iff_eq_rank : Ranks mode quotes ranked ↔ ranked = rank quotes mode := by
  constructor
  · rintro ⟨given, hshown, hsorts⟩
    obtain rfl := forall₂_shownIn_iff.mp hshown
    exact hsorts.unique (sortsStably_rank quotes mode)
  · rintro rfl
    exact ⟨_, forall₂_shownIn_iff.mpr rfl, sortsStably_rank quotes mode⟩

/-- The quotes of a ranking are shown in its mode. -/
theorem map_project_rank (quotes : List (Quote Binary64)) (mode : DisplayMode) :
    (rank quotes mode).map (·.project mode) = rank quotes mode := by
  refine (List.map_congr_left fun q hq => ?_).trans (List.map_id _)
  obtain ⟨q', -, rfl⟩ := List.mem_map.mp ((perm_rank quotes mode).mem_iff.mp hq)
  rfl

/-- A ranking is its own ranking. -/
theorem rank_rank (quotes : List (Quote Binary64)) (mode : DisplayMode) :
    rank (rank quotes mode) mode = rank quotes mode := by
  have hsorts := sortsStably_rank quotes mode
  have hself : SortsStably (rank quotes mode) (rank quotes mode) :=
    ⟨List.Perm.refl _, hsorts.sorted, fun _ _ => rfl⟩
  refine (ranks_iff_eq_rank.mp ⟨_, forall₂_shownIn_iff.mpr ?_, hself⟩).symm
  exact (map_project_rank quotes mode).symm

/-- Rankings for one mode of the same quotes have the same sequence of standings. -/
theorem map_shownStanding_rank_rank (quotes : List (Quote Binary64)) (first mode : DisplayMode) :
    (rank (rank quotes first) mode).map shownStanding = (rank quotes mode).map shownStanding := by
  have hstanding (quotes : List (Quote Binary64)) :
      (rank quotes mode).map shownStanding = (rank quotes mode).map (standing mode) :=
    List.map_congr_left fun q hq => (standing_of_mem_rank hq).symm
  rw [hstanding, hstanding]
  exact Quote.map_standing_eq (perm_rank_rank quotes first mode)
    (pairwise_rank Binary64.rankOrder _ mode) (pairwise_rank Binary64.rankOrder _ mode)

/-- **Ranking is the stable sort of the quotes shown in the mode**, and there is no other list that
is one. So ranking for the same mode again changes nothing; and ranking for another mode first
changes nothing about which quotes are listed, nor about the sequence of their standings. -/
theorem rank_unique_stable_sort (quotes : List (Quote Binary64)) (mode : DisplayMode) :
    (∀ ranked, ranked = rank quotes mode ↔ Ranks mode quotes ranked) ∧
    rank (rank quotes mode) mode = rank quotes mode ∧
    ∀ first, (rank (rank quotes first) mode).Perm (rank quotes mode) ∧
      (rank (rank quotes first) mode).map (fun q => (q.isSupportedIn mode, q.worth mode)) =
        (rank quotes mode).map (fun q => (q.isSupportedIn mode, q.worth mode)) ∧
      (rank (rank quotes first) mode).map (fun q => (q.noWorth.isNone, q.displayValue)) =
        (rank quotes mode).map fun q => (q.noWorth.isNone, q.displayValue) := by
  refine ⟨fun ranked => ranks_iff_eq_rank.symm, rank_rank quotes mode, fun first => ?_⟩
  have hperm := perm_rank_rank quotes first mode
  exact ⟨hperm, Quote.map_standing_eq hperm (pairwise_rank Binary64.rankOrder _ mode)
    (pairwise_rank Binary64.rankOrder _ mode), map_shownStanding_rank_rank quotes first mode⟩

/-- Quotes that were shown for miles are ranked for cash: the one without a worth in cash, which
came first, comes last, and the two that are worth the same stay in their order. Each of them shows
what it is worth in cash. -/
theorem rank_unique_stable_sort_equalCards :
    let b : RuleBook Binary64 := .ofScheme RuleBook.equalCards
    let q (mode : DisplayMode) (id currency : String) : Quote Binary64 :=
      b.quote (.held id currency ["base"]) (Sample.whole 1000) "dining" mode .empty .empty
    rank [q .miles "airline" "miles", q .miles "first" "cash", q .miles "second" "cash"] .cash =
      [q .cash "first" "cash", q .cash "second" "cash", q .cash "airline" "miles"] := by
  intro b q
  have hshown (id currency : String) : ShownIn .cash (q .miles id currency) (q .cash id currency) :=
    shownIn_iff.mpr (b.project_quote _ _ _ .miles .cash _ _).symm
  have hfirst : (q .cash "first" "cash").noWorth.isNone = true := by decide +kernel
  have hsecond : (q .cash "second" "cash").noWorth.isNone = true := by decide +kernel
  have hairline : (q .cash "airline" "miles").noWorth.isNone = false := by decide +kernel
  refine (((rank_unique_stable_sort _ .cash).1 _).mpr ⟨[q .cash "airline" "miles",
    q .cash "first" "cash", q .cash "second" "cash"], ?_, ?_, ?_, fun supported worth => ?_⟩).symm
  · exact .cons (hshown _ _) (.cons (hshown _ _) (.cons (hshown _ _) .nil))
  · exact List.perm_append_singleton _ [_, _]
  · decide +kernel
  · cases supported <;>
      simp only [List.filter_cons, hfirst, hsecond, hairline, reduceCtorEq, false_and, decide_false,
        Bool.false_eq_true, if_false]

end Quote

end CardRewards
