import CardRewards.Proofs.Quote.Ranking

/-!
# Showing quotes in another mode

The display mode of a purchase is about presentation. A quote that was evaluated in one mode and is
then shown in another is the quote evaluated in the other one (`RuleBook.project_quote`), and the
quotes of all cards held need not be evaluated again to be ranked for another mode. They come in the
same order up to ties: ranking first for one mode and then for another may exchange quotes that have
the same standing, and nothing else (`Quote.map_standing_eq`).

What booking a quote charges does not depend on its mode either. Only the worth is kept as it was
shown, in the receipt and in the totals: `RuleBook.quotes_in_two_modes`.
-/

namespace CardRewards

/-- Two quotes differ in nothing but what depends on the mode that they are shown in. -/
def Quote.SameUpToMode {α : Type} (q q' : Quote α) : Prop :=
  q' = { q with
    displayMode := q'.displayMode, displayValue := q'.displayValue, noWorth := q'.noWorth }

/-- Two receipts differ in nothing but the worth. -/
def Receipt.SameUpToValue {α : Type} (r r' : Receipt α) : Prop := r' = { r with value := r'.value }

/-- Two profiles differ in nothing but the total worth. -/
def Profile.SameUpToValue {α : Type} (p p' : Profile α) : Prop :=
  p' = { p with totals := { p.totals with value := p'.totals.value } }

/-! ## Projections -/

theorem Quote.sameUpToMode_project {α : Type} [Amount α] (q : Quote α) (mode : DisplayMode) :
    q.SameUpToMode (q.project mode) := rfl

/-- The receipt for a quote has the worth that the quote is shown with, and nothing else of how it
is shown. -/
theorem Profile.receipt_project {α : Type} [Amount α] (p : Profile α) (q : Quote α)
    (mode : DisplayMode) : (p.receipt q).SameUpToValue (p.receipt (q.project mode)) := rfl

/-- Booking a quote adds the worth that the quote is shown with to the totals, and charges the same
to the same counters however it is shown. -/
theorem Profile.book_project {α : Type} [Amount α] (p : Profile α) (q : Quote α)
    (mode : DisplayMode) : (p.book q).SameUpToValue (p.book (q.project mode)) := rfl

namespace Quote

/-! ## Standings -/

/-- What a quote is ranked by: whether it has a worth in a mode, and the worth. -/
def standing {α : Type} [Amount α] (mode : DisplayMode) (q : Quote α) : Bool × α :=
  (q.isSupportedIn mode, q.worth mode)

variable {mode : DisplayMode}

/-- A standing is no lower than another one. -/
def StandsUpTo (s t : Bool × Binary64) : Prop :=
  (t.1 = true → s.1 = true) ∧ (s.1 = t.1 → t.2.totalLe s.2 = true)

/-- Standings of which neither is lower are the same, worths being compared bit by bit. -/
theorem standsUpTo_antisymm {s t : Bool × Binary64} (hst : StandsUpTo s t) (hts : StandsUpTo t s) :
    s = t := by
  have hsupported : s.1 = t.1 := Bool.eq_iff_iff.mpr ⟨hts.1, hst.1⟩
  exact Prod.ext hsupported
    (Binary64.totalLe_antisymm (hts.2 hsupported.symm) (hst.2 hsupported))

theorem pairwise_standing {quotes : List (Quote Binary64)}
    (h : quotes.Pairwise fun a b => ranksBefore mode a b = true) :
    (quotes.map (standing mode)).Pairwise StandsUpTo := by
  rw [List.pairwise_map]
  exact h.imp ranksBefore_iff.mp

/-- Of the same quotes there is one order of standings in which they can be ranked. -/
theorem map_standing_eq {quotes quotes' : List (Quote Binary64)} (hperm : quotes.Perm quotes')
    (h : quotes.Pairwise fun a b => ranksBefore mode a b = true)
    (h' : quotes'.Pairwise fun a b => ranksBefore mode a b = true) :
    quotes.map (standing mode) = quotes'.map (standing mode) :=
  List.Perm.eq_of_pairwise (fun _ _ _ _ => standsUpTo_antisymm) (pairwise_standing h)
    (pairwise_standing h') (hperm.map _)

/-- Ranking quotes that have been ranked for another mode lists the same quotes. -/
theorem perm_rank_rank {α : Type} [Amount α] (quotes : List (Quote α)) (first mode : DisplayMode) :
    (rank (rank quotes first) mode).Perm (rank quotes mode) := by
  have hfirst := (perm_rank quotes first).map (·.project mode)
  rw [List.map_map] at hfirst
  exact ((perm_rank _ mode).trans hfirst).trans (perm_rank quotes mode).symm

end Quote

namespace RuleBook

section

variable {α : Type} [Amount α] {b : RuleBook α} {card : Card} {amount : α} {rawCategory : String}
  {m₁ m₂ : DisplayMode} {ledger : Ledger α} {settings : Settings} {p : Profile α}

/-- A quote shown in another mode is the quote evaluated in it. -/
theorem project_quote (b : RuleBook α) (card : Card) (amount : α) (rawCategory : String)
    (m₁ m₂ : DisplayMode) (ledger : Ledger α) (settings : Settings) :
    (b.quote card amount rawCategory m₁ ledger settings).project m₂ =
      b.quote card amount rawCategory m₂ ledger settings := rfl

theorem quoteCard_eq_map_project (id : String) :
    b.quoteCard id amount rawCategory m₂ p =
      (b.quoteCard id amount rawCategory m₁ p).map (·.project m₂) := by
  unfold quoteCard
  cases b.vet amount p with
  | error fault => rfl
  | ok =>
    cases b.scheme.card? id with
    | none => rfl
    | some card => rfl

/-- Ranking the quotes of one mode for another one lists the quotes of the other one. -/
theorem perm_rank_quoteAll {quotes₁ quotes₂ : List (Quote α)}
    (h₁ : b.quoteAll amount rawCategory m₁ p = .ok quotes₁)
    (h₂ : b.quoteAll amount rawCategory m₂ p = .ok quotes₂) :
    (Quote.rank quotes₁ m₂).Perm quotes₂ := by
  obtain ⟨-, rfl⟩ := quoteAll_eq_ok_iff.mp h₁
  obtain ⟨-, rfl⟩ := quoteAll_eq_ok_iff.mp h₂
  refine (Quote.perm_rank_rank _ m₁ m₂).trans ?_
  refine (Quote.perm_rank _ m₂).trans (List.Perm.trans ?_ (Quote.perm_rank _ m₂).symm)
  rw [List.map_map, List.map_map]
  exact List.Perm.refl _

/-- A quote of a card that is not there is refused. -/
theorem commit_of_unknown {σ : Type} [ProfileStore σ α] {a : Account σ α} {q : Quote α}
    (unknown : b.scheme.card? q.cardId = none) :
    b.commit a q = (.error (.cardNotFound q.cardId), a) := by
  unfold commit
  rw [unknown]

/-- A quote of a card that is there is booked if the store takes the profile. -/
theorem commit_of_saved {σ : Type} [ProfileStore σ α] {a : Account σ α} {q : Quote α}
    (known : b.scheme.card? q.cardId ≠ none)
    (saved : (ProfileStore.save a.store (a.profile.book q)).1 = .ok ()) :
    (b.commit a q).1 = .ok (a.profile.receipt q) ∧ (b.commit a q).2.profile = a.profile.book q := by
  obtain ⟨found, hfound⟩ := Option.ne_none_iff_exists'.mp known
  unfold commit Account.settle
  rw [hfound]
  revert saved
  rcases ProfileStore.save a.store (a.profile.book q) with ⟨result, store⟩
  rintro rfl
  exact ⟨rfl, rfl⟩

end

/-- **The display mode only affects presentation.** A quote shown in another mode is the quote
evaluated in it; ranking the quotes of one mode for another one lists the quotes of the other one,
with the same standings in the same order; and booking a quote leaves the same receipt and the same
profile in both, apart from the worth and the total worth. What is refused in one mode is refused in
the other for the same reason. -/
theorem quotes_in_two_modes (b : RuleBook Binary64) (amount : Binary64) (rawCategory : String)
    (m₁ m₂ : DisplayMode) (p : Profile Binary64) :
    let quote (card : Card) (mode : DisplayMode) :=
      b.quote card amount rawCategory mode p.ledger p.settings
    let quoteAll (mode : DisplayMode) := b.quoteAll amount rawCategory mode p
    (∀ card, quote card m₂ = (quote card m₁).project m₂ ∧
      (quote card m₁).SameUpToMode (quote card m₂)) ∧
    (∀ id, b.quoteCard id amount rawCategory m₂ p =
      (b.quoteCard id amount rawCategory m₁ p).map (·.project m₂)) ∧
    (∀ fault, quoteAll m₁ = .error fault ↔ quoteAll m₂ = .error fault) ∧
    (∀ quotes₁ quotes₂, quoteAll m₁ = .ok quotes₁ → quoteAll m₂ = .ok quotes₂ →
      (Quote.rank quotes₁ m₂).Perm quotes₂ ∧
        (Quote.rank quotes₁ m₂).map (Quote.standing m₂) = quotes₂.map (Quote.standing m₂)) ∧
    ∀ {σ : Type} [ProfileStore σ Binary64] (a : Account σ Binary64) (card : Card),
      (b.scheme.card? card.id = none →
        ∀ mode, b.commit a (quote card mode) = (.error (.cardNotFound card.id), a)) ∧
      (b.scheme.card? card.id ≠ none →
        (∀ mode, (ProfileStore.save a.store (a.profile.book (quote card mode))).1 = .ok ()) →
        ∃ r₁ r₂, (b.commit a (quote card m₁)).1 = .ok r₁ ∧ (b.commit a (quote card m₂)).1 = .ok r₂ ∧
          r₁.SameUpToValue r₂ ∧
          (b.commit a (quote card m₁)).2.profile.SameUpToValue
            (b.commit a (quote card m₂)).2.profile) := by
  intro quote quoteAll
  refine ⟨fun card => ⟨?_, ?_⟩, quoteCard_eq_map_project, fun fault => ?_,
    fun quotes₁ quotes₂ h₁ h₂ => ?_, fun a card => ⟨fun hnone mode => ?_, fun known saved => ?_⟩⟩
  · exact (b.project_quote card amount rawCategory m₁ m₂ p.ledger p.settings).symm
  · exact (quote card m₁).sameUpToMode_project m₂
  · rw [quoteAll_eq_error_iff, quoteAll_eq_error_iff]
  · have hperm := perm_rank_quoteAll h₁ h₂
    refine ⟨hperm, Quote.map_standing_eq hperm (Quote.pairwise_rank Binary64.rankOrder _ m₂) ?_⟩
    rw [← (quoteAll_eq_ok_iff.mp h₂).2]
    exact Quote.pairwise_rank Binary64.rankOrder _ m₂
  · exact commit_of_unknown (q := quote card mode) hnone
  · obtain ⟨hanswer₁, hprofile₁⟩ := commit_of_saved (q := quote card m₁) known (saved m₁)
    obtain ⟨hanswer₂, hprofile₂⟩ := commit_of_saved (q := quote card m₂) known (saved m₂)
    refine ⟨_, _, hanswer₁, hanswer₂, ?_, ?_⟩
    · exact a.profile.receipt_project (quote card m₁) m₂
    · rw [hprofile₁, hprofile₂]
      exact a.profile.book_project (quote card m₁) m₂

/-- Travel on the card that grants miles has no worth in cash. Its quotes in both modes rank the
cards alike for miles, and are booked with the same receipt but for the worth. -/
theorem quotes_in_two_modes_voyage :
    let b : RuleBook Binary64 := .ofScheme Sample.scheme
    let card : Card := .held "voyage" "miles"
      ["base", "voyage_tier", "voyage_flex", "voyage_mission", "voyage_bonus"]
    let p : Profile Binary64 := { Profile.empty with settings := Sample.settings }
    let a : Account (MemoryStore Binary64) Binary64 := ⟨p, ⟨p⟩⟩
    let quote (mode : DisplayMode) :=
      b.quote card (Sample.whole 1000) "travel" mode p.ledger p.settings
    (quote .miles).displayValue ≠ (quote .cash).displayValue ∧
      (∃ quotes₁ quotes₂,
        b.quoteAll (Sample.whole 1000) "travel" .cash p = .ok quotes₁ ∧
        b.quoteAll (Sample.whole 1000) "travel" .miles p = .ok quotes₂ ∧
        (Quote.rank quotes₁ .miles).map (Quote.standing .miles) =
          quotes₂.map (Quote.standing .miles)) ∧
      ∃ r₁ r₂, (b.commit a (quote .cash)).1 = .ok r₁ ∧ (b.commit a (quote .miles)).1 = .ok r₂ ∧
        r₁.SameUpToValue r₂ := by
  intro b card p a quote
  have vetted : b.vet (Sample.whole 1000) p = .ok () :=
    vet_eq_ok_iff.mpr ⟨by decide +kernel, by decide +kernel⟩
  have hquotes (mode : DisplayMode) :
      ∃ quotes, b.quoteAll (Sample.whole 1000) "travel" mode p = .ok quotes :=
    ⟨_, quoteAll_eq_ok_iff.mpr ⟨vetted, rfl⟩⟩
  obtain ⟨quotes₁, hcash⟩ := hquotes .cash
  obtain ⟨quotes₂, hmiles⟩ := hquotes .miles
  obtain ⟨-, -, -, hrank, hcommit⟩ :=
    quotes_in_two_modes b (Sample.whole 1000) "travel" .cash .miles p
  have known : b.scheme.card? card.id ≠ none := by decide +kernel
  obtain ⟨r₁, r₂, hr₁, hr₂, hsame, -⟩ := (hcommit a card).2 known fun _ => rfl
  exact ⟨by decide +kernel, ⟨quotes₁, quotes₂, hcash, hmiles, (hrank _ _ hcash hmiles).2⟩,
    r₁, r₂, hr₁, hr₂, hsame⟩

end RuleBook

end CardRewards
