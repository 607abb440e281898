import CardRewards.Proofs.Number.Comparison
import CardRewards.Proofs.Session.Run
import CardRewards.Scheme.Sample
import Mathlib.Algebra.GroupWithZero.Nat
import Mathlib.Data.List.Nodup

/-!
# The ranking of the cards held

A ranking is a stable sort. It lists the quotes that it is given, each shown in its mode
(`Quote.perm_rank`); every quote in it may stand before those behind it (`Quote.pairwise_rank`);
and quotes that tie keep their order (`Quote.filter_rank`). All that is asked of the amounts is that
their order of ranks is total and transitive (`Amount.RankOrder`), as the total order of doubles is.

The quotes of the cards held and the quote of one card are asked for apart. They are refused for the
same amounts and settings, and a card has the same quote in both: `quoteAll_ranks_quoteCard`.
-/

namespace CardRewards

/-- Any two amounts compare in the order in which worths are ranked. -/
structure Amount.RankOrder (α : Type) [Amount α] : Prop where
  trans : ∀ x y z : α, ranksUpTo x y = true → ranksUpTo y z = true → ranksUpTo x z = true
  total : ∀ x y : α, (ranksUpTo x y || ranksUpTo y x) = true

theorem Binary64.rankOrder : Amount.RankOrder Binary64 where
  trans _ _ _ := totalLe_trans
  total := totalLe_total

namespace Quote

variable {α : Type} [Amount α] {mode : DisplayMode}

/-! ## Rankings -/

/-- A quote may stand before another one if it has a worth whenever the other one has, and if, both
or neither having one, its worth is no less. -/
theorem ranksBefore_iff {a b : Quote α} :
    ranksBefore mode a b = true ↔
      (b.isSupportedIn mode = true → a.isSupportedIn mode = true) ∧
        (a.isSupportedIn mode = b.isSupportedIn mode →
          Amount.ranksUpTo (b.worth mode) (a.worth mode) = true) := by
  unfold ranksBefore
  cases a.isSupportedIn mode <;> cases b.isSupportedIn mode <;> simp

theorem ranksBefore_trans (order : Amount.RankOrder α) (a b c : Quote α)
    (hab : ranksBefore mode a b = true) (hbc : ranksBefore mode b c = true) :
    ranksBefore mode a c = true := by
  rw [ranksBefore_iff] at *
  refine ⟨fun hc => hab.1 (hbc.1 hc), fun hac => ?_⟩
  -- the one between two quotes that agree in support agrees with both
  have hsupport : a.isSupportedIn mode = b.isSupportedIn mode := by
    cases hb : b.isSupportedIn mode with
    | true => exact hab.1 hb
    | false =>
      rw [hac]
      cases hc : c.isSupportedIn mode with
      | true => rw [← hb, hbc.1 hc]
      | false => rfl
  exact order.trans _ _ _ (hbc.2 (hsupport.symm.trans hac)) (hab.2 hsupport)

theorem ranksBefore_total (order : Amount.RankOrder α) (a b : Quote α) :
    (ranksBefore mode a b || ranksBefore mode b a) = true := by
  have htotal := order.total (b.worth mode) (a.worth mode)
  unfold ranksBefore
  cases a.isSupportedIn mode <;> cases b.isSupportedIn mode
  · exact htotal
  · rfl
  · rfl
  · exact htotal

/-- A ranking lists the quotes that it is given, each shown in its mode. -/
theorem perm_rank (quotes : List (Quote α)) (mode : DisplayMode) :
    (rank quotes mode).Perm (quotes.map (·.project mode)) :=
  List.mergeSort_perm _ _

/-- Every quote of a ranking may stand before those behind it. -/
theorem pairwise_rank (order : Amount.RankOrder α) (quotes : List (Quote α)) (mode : DisplayMode) :
    (rank quotes mode).Pairwise fun a b => ranksBefore mode a b = true :=
  List.pairwise_mergeSort (ranksBefore_trans order) (ranksBefore_total order) _

/-- Quotes of which each may stand before each keep their order. -/
theorem filter_rank (order : Amount.RankOrder α) {tie : Quote α → Bool}
    (h : ∀ a b, tie a = true → tie b = true → ranksBefore mode a b = true)
    (quotes : List (Quote α)) :
    (rank quotes mode).filter tie = (quotes.map (·.project mode)).filter tie := by
  -- in their old order they are sorted, so a stable sort keeps them as they are; and of those that
  -- tie the ranking has no more
  have hsorted : ((quotes.map (·.project mode)).filter tie).Pairwise
      fun a b => ranksBefore mode a b = true := by
    refine List.pairwise_of_forall_mem_list fun a ha b hb => ?_
    exact h a b (List.mem_filter.mp ha).2 (List.mem_filter.mp hb).2
  have hsub : ((quotes.map (·.project mode)).filter tie).Sublist (rank quotes mode) :=
    List.sublist_mergeSort (ranksBefore_trans order) (ranksBefore_total order) hsorted
      List.filter_sublist
  have hlength : ((rank quotes mode).filter tie).length =
      ((quotes.map (·.project mode)).filter tie).length :=
    ((perm_rank quotes mode).filter tie).length_eq
  have hfiltered := hsub.filter tie
  rw [List.filter_filter] at hfiltered
  simp only [Bool.and_self] at hfiltered
  exact (hfiltered.eq_of_length hlength.symm).symm

end Quote

/-! ## What quotes are refused for -/

/-- The weights put on all buckets add up to what is allocated. -/
theorem Settings.allocated_eq_sum (s : Settings) :
    s.allocated = (Bucket.all.map fun bucket => (s.weight bucket).toNat).sum := by
  unfold allocated weight BucketTable.toList
  rcases s.allocation with ⟨dining, online, travel, overseas, entertainment⟩
  cases dining <;> cases online <;> cases travel <;> cases overseas <;> cases entertainment <;>
    simp [Bucket.all, BucketTable.get?]

namespace RuleBook

variable {α : Type} [Amount α] {b : RuleBook α} {amount : α} {rawCategory : String}
  {mode : DisplayMode} {p : Profile α}

/-- The quotes of all cards are refused exactly if the purchase is. -/
theorem quoteAll_eq_error_iff {fault : Fault α} :
    b.quoteAll amount rawCategory mode p = .error fault ↔ b.vet amount p = .error fault := by
  unfold quoteAll
  cases b.vet amount p <;> simp [bind, Except.bind]

theorem quoteAll_eq_ok_iff {quotes : List (Quote α)} :
    b.quoteAll amount rawCategory mode p = .ok quotes ↔
      b.vet amount p = .ok () ∧
        Quote.rank (b.scheme.ownedCards.map fun card =>
          b.quote card amount rawCategory mode p.ledger p.settings) mode = quotes := by
  unfold quoteAll
  cases b.vet amount p <;> simp [bind, Except.bind]

/-- The quote of a card is refused exactly if the purchase is, or else if there is no such card. -/
theorem quoteCard_eq_error_iff {id : String} {fault : Fault α} :
    b.quoteCard id amount rawCategory mode p = .error fault ↔
      b.vet amount p = .error fault ∨
        b.vet amount p = .ok () ∧ b.scheme.card? id = none ∧ fault = .cardNotFound id := by
  unfold quoteCard
  cases b.vet amount p with
  | error cause => simp [bind, Except.bind]
  | ok =>
    cases b.scheme.card? id with
    | none => simp [bind, Except.bind, eq_comm]
    | some card => simp [bind, Except.bind]

theorem quoteCard_eq_ok_iff {id : String} {q : Quote α} :
    b.quoteCard id amount rawCategory mode p = .ok q ↔
      b.vet amount p = .ok () ∧ ∃ card, b.scheme.card? id = some card ∧
        b.quote card amount rawCategory mode p.ledger p.settings = q := by
  unfold quoteCard
  cases b.vet amount p with
  | error cause => simp [bind, Except.bind]
  | ok => cases b.scheme.card? id <;> simp [bind, Except.bind]

/-- A card is found by its id if no other card has it. -/
theorem quoteCard_of_mem (distinct : (b.scheme.cards.map (·.id)).Nodup) {card : Card}
    (listed : card ∈ b.scheme.cards) (vetted : b.vet amount p = .ok ()) :
    b.quoteCard card.id amount rawCategory mode p =
      .ok (b.quote card amount rawCategory mode p.ledger p.settings) := by
  have hfound : b.scheme.card? card.id = some card := by
    cases hcard : b.scheme.card? card.id with
    | none =>
      have hnone := List.find?_eq_none.mp hcard card listed
      simp at hnone
    | some other =>
      have hother : other ∈ b.scheme.cards := List.mem_of_find?_eq_some hcard
      have hid : other.id = card.id := by simpa using List.find?_some hcard
      rw [List.inj_on_of_nodup_map distinct hother listed hid]
  simp only [quoteCard, vetted, bind, Except.bind, hfound]

/-- A quote is shown in the mode that it was evaluated in, and ranking it in that mode changes
nothing about it. -/
theorem map_project_quote (cards : List Card) :
    (cards.map fun card => b.quote card amount rawCategory mode p.ledger p.settings).map
        (·.project mode) =
      cards.map fun card => b.quote card amount rawCategory mode p.ledger p.settings := by
  rw [List.map_map]
  rfl

/-- The quotes of the cards held are the quotes of each of them, in some order. -/
theorem perm_of_quoteAll {quotes : List (Quote α)}
    (h : b.quoteAll amount rawCategory mode p = .ok quotes) :
    quotes.Perm (b.scheme.ownedCards.map fun card =>
      b.quote card amount rawCategory mode p.ledger p.settings) := by
  obtain ⟨-, rfl⟩ := quoteAll_eq_ok_iff.mp h
  have hperm := Quote.perm_rank (b.scheme.ownedCards.map fun card =>
    b.quote card amount rawCategory mode p.ledger p.settings) mode
  rwa [map_project_quote] at hperm

/-- Cards whose quotes tie keep the order of the scheme. -/
theorem ids_of_filter_quoteAll (order : Amount.RankOrder α) {quotes : List (Quote α)}
    (h : b.quoteAll amount rawCategory mode p = .ok quotes) {tie : Quote α → Bool}
    (htie : ∀ q r, tie q = true → tie r = true → Quote.ranksBefore mode q r = true) :
    ((quotes.filter tie).map (·.cardId)).Sublist (b.scheme.cards.map (·.id)) := by
  obtain ⟨-, rfl⟩ := quoteAll_eq_ok_iff.mp h
  rw [Quote.filter_rank order htie, map_project_quote]
  have hsub : (((b.scheme.ownedCards.map fun card =>
      b.quote card amount rawCategory mode p.ledger p.settings).filter tie).map
        (·.cardId)).Sublist (b.scheme.ownedCards.map (·.id)) := by
    have hall := (List.filter_sublist (p := tie) (l := b.scheme.ownedCards.map fun card =>
      b.quote card amount rawCategory mode p.ledger p.settings)).map (·.cardId)
    rw [List.map_map] at hall
    exact hall
  exact hsub.trans (List.filter_sublist.map _)

/-- A purchase in doubles is refused for an amount that is not a finite number above zero, or else
for weights that together exceed the budget. -/
theorem vet_eq (b : RuleBook Binary64) (amount : Binary64) (p : Profile Binary64) :
    b.vet amount p =
      if amount.isFinite = true ∧ 0 < amount then
        if p.settings.allocated ≤ b.scheme.allocation.budget.toNat then .ok ()
        else .error (.overAllocated p.settings.allocated b.scheme.allocation.budget)
      else .error (.invalidAmount amount) := by
  unfold vet
  by_cases hamount : amount.isFinite = true ∧ 0 < amount
  · have hpos : ¬ amount ≤ 0 :=
      (Binary64.not_le_zero_iff (Binary64.isNaN_of_isFinite hamount.1)).mpr hamount.2
    have haccepted : ¬ (!Amount.isFinite amount || decide (amount ≤ 0)) = true := by
      simp [show Amount.isFinite amount = true from hamount.1, hpos]
    rw [if_neg haccepted, if_pos hamount]
    simp only [Settings.withinBudget, decide_eq_true_eq]
  · have hrefused : (!Amount.isFinite amount || decide (amount ≤ 0)) = true := by
      cases hnumber : amount.isFinite with
      | false => simp [show Amount.isFinite amount = false from hnumber]
      | true =>
        have hle : amount ≤ 0 := Decidable.byContradiction fun hpos =>
          hamount ⟨hnumber, (Binary64.not_le_zero_iff
            (Binary64.isNaN_of_isFinite hnumber)).mp hpos⟩
        simp [hle]
    rw [if_pos hrefused, if_neg hamount]

theorem vet_eq_ok_iff {b : RuleBook Binary64} {amount : Binary64} {p : Profile Binary64} :
    b.vet amount p = .ok () ↔ (amount.isFinite = true ∧ 0 < amount) ∧
      p.settings.allocated ≤ b.scheme.allocation.budget.toNat := by
  rw [vet_eq]
  split
  next hamount => split <;> simp_all
  next hamount => simp [hamount]

theorem vet_eq_error_iff {b : RuleBook Binary64} {amount : Binary64} {p : Profile Binary64}
    {fault : Fault Binary64} :
    b.vet amount p = .error fault ↔
      ¬ (amount.isFinite = true ∧ 0 < amount) ∧ fault = .invalidAmount amount ∨
        (amount.isFinite = true ∧ 0 < amount) ∧
          b.scheme.allocation.budget.toNat < p.settings.allocated ∧
          fault = .overAllocated p.settings.allocated b.scheme.allocation.budget := by
  rw [vet_eq]
  by_cases hamount : amount.isFinite = true ∧ 0 < amount
  · rw [if_pos hamount]
    by_cases hbudget : p.settings.allocated ≤ b.scheme.allocation.budget.toNat
    · simp [hamount, hbudget, Nat.not_lt.mpr hbudget]
    · simp [hamount, hbudget, Nat.not_le.mp hbudget, eq_comm]
  · simp only [hamount, if_false, Except.error.injEq, not_false_eq_true, true_and, false_and,
      or_false]
    exact eq_comm

/-! ## The cards held -/

/-- **The quotes of the cards held are the quotes of each of them, ranked.** Both are refused for an
amount that is not a finite number above zero, and else for weights that together exceed the budget;
the quote of one card then also if there is no such card. Otherwise the ranking has each card held
once and no other, with the quote that is given for the card alone; cards with a worth in the mode
come before those without, within each group by falling worth, and where the worths are the same in
the order of the scheme. -/
theorem quoteAll_ranks_quoteCard {b : RuleBook Binary64}
    (distinct : (b.scheme.cards.map (·.id)).Nodup) (amount : Binary64) (rawCategory : String)
    (mode : DisplayMode) (p : Profile Binary64) :
    let spendable := amount.isFinite = true ∧ 0 < amount
    let total := (Bucket.all.map fun bucket => (p.settings.weight bucket).toNat).sum
    let budget := b.scheme.allocation.budget
    (∀ fault, b.quoteAll amount rawCategory mode p = .error fault ↔
      ¬ spendable ∧ fault = .invalidAmount amount ∨
        spendable ∧ budget.toNat < total ∧ fault = .overAllocated total budget) ∧
    (∀ id fault, b.quoteCard id amount rawCategory mode p = .error fault ↔
      ¬ spendable ∧ fault = .invalidAmount amount ∨
        spendable ∧ budget.toNat < total ∧ fault = .overAllocated total budget ∨
        spendable ∧ total ≤ budget.toNat ∧ (∀ card ∈ b.scheme.cards, card.id ≠ id) ∧
          fault = .cardNotFound id) ∧
    ∀ quotes, b.quoteAll amount rawCategory mode p = .ok quotes →
      (quotes.map (·.cardId)).Perm ((b.scheme.cards.filter (·.owned)).map (·.id)) ∧
      (quotes.map (·.cardId)).Nodup ∧
      (∀ q ∈ quotes, b.quoteCard q.cardId amount rawCategory mode p = .ok q) ∧
      (quotes.Pairwise fun q r =>
        (r.isSupportedIn mode = true → q.isSupportedIn mode = true) ∧
          (q.isSupportedIn mode = r.isSupportedIn mode →
            (r.worth mode).totalLe (q.worth mode) = true)) ∧
      ∀ supported worth,
        ((quotes.filter fun q => q.isSupportedIn mode = supported ∧ q.worth mode = worth).map
          (·.cardId)).Sublist (b.scheme.cards.map (·.id)) := by
  intro spendable total budget
  have htotal : p.settings.allocated = total := Settings.allocated_eq_sum _
  refine ⟨fun fault => ?_, fun id fault => ?_, fun quotes hquotes => ?_⟩
  · rw [quoteAll_eq_error_iff, vet_eq_error_iff, htotal]
  · rw [quoteCard_eq_error_iff, vet_eq_error_iff, vet_eq_ok_iff, htotal, Scheme.card?,
      List.find?_eq_none]
    simp only [decide_eq_true_eq, or_assoc, and_assoc, spendable, budget]
  · have hvet := (quoteAll_eq_ok_iff.mp hquotes).1
    have hperm := perm_of_quoteAll hquotes
    have hids : (quotes.map (·.cardId)).Perm ((b.scheme.cards.filter (·.owned)).map (·.id)) := by
      have hmap := hperm.map (·.cardId)
      rw [List.map_map] at hmap
      exact hmap
    refine ⟨hids, ?_, fun q hq => ?_, ?_, fun supported worth => ?_⟩
    · exact hids.nodup_iff.mpr (distinct.sublist (List.filter_sublist.map _))
    · obtain ⟨card, hcard, rfl⟩ := List.mem_map.mp (hperm.mem_iff.mp hq)
      exact quoteCard_of_mem distinct (List.mem_filter.mp hcard).1 hvet
    · rw [← (quoteAll_eq_ok_iff.mp hquotes).2]
      exact (Quote.pairwise_rank Binary64.rankOrder _ mode).imp Quote.ranksBefore_iff.mp
    · refine ids_of_filter_quoteAll Binary64.rankOrder hquotes fun q r hq hr => ?_
      simp only [Bool.decide_and, Bool.and_eq_true, decide_eq_true_eq] at hq hr
      rw [Quote.ranksBefore_iff]
      refine ⟨fun _ => ?_, fun _ => ?_⟩
      · rw [hq.1, ← hr.1]
        assumption
      · rw [hq.2, hr.2]
        exact Binary64.totalLe_refl worth

/-- A card whose rewards have no worth in cash, two cards that grant the same and one that is not
held. -/
def equalCards : Scheme Binary64 :=
  { Sample.single [RuleSpec.base "base" (Sample.thousandths 4)] with
    cards :=
      [.held "airline" "miles" ["base"], .held "first" "cash" ["base"],
        { Card.held "lent" "cash" ["base"] with owned := false }, .held "second" "cash" ["base"]]
    conversions := .ofList [("cash", ⟨1, 0⟩), ("miles", ⟨0, 1⟩)] }

/-- The two cards that grant the same come first, in the order of the scheme, and the one without a
worth in cash last. The card that is not held has a quote of its own; a card that is not there has
none, and nothing is granted for an amount of nothing. -/
theorem quoteAll_ranks_quoteCard_equalCards :
    let b : RuleBook Binary64 := .ofScheme equalCards
    let amount : Binary64 := Sample.whole 1000
    (b.scheme.cards.map (·.id)).Nodup ∧
      (∃ quotes, b.quoteAll amount "dining" .cash .empty = .ok quotes ∧
        quotes.map (·.cardId) = ["first", "second", "airline"] ∧
        ∀ q ∈ quotes, b.quoteCard q.cardId amount "dining" .cash .empty = .ok q) ∧
      b.quoteCard "lost" amount "dining" .cash .empty = .error (.cardNotFound "lost") ∧
      b.quoteAll 0 "dining" .cash .empty = .error (.invalidAmount 0) := by
  intro b amount
  have distinct : (b.scheme.cards.map (·.id)).Nodup := by decide +kernel
  have hspendable : amount.isFinite = true ∧ 0 < amount := by decide +kernel
  have hbudget : (Bucket.all.map fun bucket =>
      ((Profile.empty : Profile Binary64).settings.weight bucket).toNat).sum ≤
        b.scheme.allocation.budget.toNat := by
    decide +kernel
  obtain ⟨-, hfault, hranked⟩ :=
    quoteAll_ranks_quoteCard distinct amount "dining" .cash .empty
  obtain ⟨hrefused, -⟩ := quoteAll_ranks_quoteCard distinct 0 "dining" .cash .empty
  let q (card : Card) := b.quote card amount "dining" .cash .empty .empty
  have hquotes : b.quoteAll amount "dining" .cash .empty =
      .ok [q (.held "first" "cash" ["base"]), q (.held "second" "cash" ["base"]),
        q (.held "airline" "miles" ["base"])] := by
    refine quoteAll_eq_ok_iff.mpr ⟨vet_eq_ok_iff.mpr ⟨hspendable, by decide +kernel⟩, ?_⟩
    have hfirst : Quote.ranksBefore .cash (q (.held "airline" "miles" ["base"]))
        (q (.held "first" "cash" ["base"])) = false := by decide +kernel
    have hsecond : Quote.ranksBefore .cash (q (.held "airline" "miles" ["base"]))
        (q (.held "second" "cash" ["base"])) = false := by decide +kernel
    have htie : Quote.ranksBefore .cash (q (.held "first" "cash" ["base"]))
        (q (.held "second" "cash" ["base"])) = true := by decide +kernel
    have howned : b.scheme.ownedCards = [.held "airline" "miles" ["base"],
        .held "first" "cash" ["base"], .held "second" "cash" ["base"]] := by decide +kernel
    rw [howned, Quote.rank, map_project_quote]
    show (List.map q _).mergeSort _ = _
    simp [List.mergeSort, hfirst, hsecond, htie]
  refine ⟨distinct, ⟨_, hquotes, rfl, (hranked _ hquotes).2.2.1⟩, ?_, ?_⟩
  · exact (hfault _ _).mpr (.inr (.inr ⟨hspendable, hbudget, by decide +kernel, rfl⟩))
  · exact (hrefused _).mpr (.inl ⟨by decide +kernel, rfl⟩)

end RuleBook

end CardRewards
