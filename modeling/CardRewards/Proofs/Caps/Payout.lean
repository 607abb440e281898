import CardRewards.Proofs.Caps.Limit
import CardRewards.Proofs.Quote.Line
import CardRewards.Proofs.Session.Run
import CardRewards.Scheme.Sample
import Mathlib.Data.List.Basic

/-!
# What a rule under a cap on rewards pays

What is charged to the counter of a cap stays within its limit, and so does what the rule pays, as
long as all that it pays is charged. A quote charges one cap on rewards: that of the first rule that
pays under such a cap. A rule that comes second pays without a charge, and does so again with the
next purchase: over many purchases it may pay more than its limit (`paid_beyond_limit`).

So the bound is about the quotes in which the rule comes first (`RuleBook.PaysFirst`). What it pays
in them, over any run of steps that are not stale and set no counter back, is no more than its
limit: `paid_within_limit`. These are all quotes by which it pays if the cards list it before all
other rules under such caps (`RuleBook.ListedFirst`). The invariant is that what it has paid in them
is no more than the limit and no more than what its counter stands at.
-/

namespace CardRewards

namespace Quote

/-- What the lines of a rule come to on an amount. -/
def paidOf (lines : List (QuoteLine ℚ)) (amount : ℚ) (id : String) : ℚ :=
  ((lines.filter (·.ruleId = id)).map fun line => line.rate * amount).sum

/-- The reward that a rule pays by a quote. -/
def paid (q : Quote ℚ) (id : String) : ℚ := paidOf q.lines q.amount id

end Quote

namespace RuleBook

/-- Whether the rule with an id is under a cap on rewards. -/
def isRewardCapped (b : RuleBook ℚ) (id : String) : Bool :=
  (b.rule? id).any fun rule => !rule.rewardLimits.isEmpty

/-- Whether a line pays a reward under a cap on rewards. -/
def paysUnderCap (b : RuleBook ℚ) (line : QuoteLine ℚ) : Bool :=
  decide (0 < line.rate) && b.isRewardCapped line.ruleId

/-- The rules that pay under caps on rewards by a quote, in order. -/
def payers (b : RuleBook ℚ) (q : Quote ℚ) : List String :=
  (q.lines.filter b.paysUnderCap).map (·.ruleId)

/-- Of the rules that pay under caps on rewards by a quote, the rule is the first, and it pays by
one line. -/
def PaysFirst (b : RuleBook ℚ) (q : Quote ℚ) (id : String) : Prop :=
  (b.payers q).head? = some id ∧ id ∉ (b.payers q).tail

instance (b : RuleBook ℚ) (q : Quote ℚ) (id : String) : Decidable (b.PaysFirst q id) :=
  inferInstanceAs (Decidable (_ ∧ _))

/-- Of the rules under caps on rewards that a card lists, the rule is the first, and it is listed
once, unless the card does not list it. -/
def ListedFirst (b : RuleBook ℚ) (card : Card) (id : String) : Prop :=
  id ∈ card.rules → (card.rules.filter b.isRewardCapped).head? = some id ∧
    id ∉ (card.rules.filter b.isRewardCapped).tail

instance (b : RuleBook ℚ) (card : Card) (id : String) : Decidable (b.ListedFirst card id) :=
  inferInstanceAs (Decidable (_ → _))

end RuleBook

/-! ## Sums over lines -/

namespace Quote

variable {lines : List (QuoteLine ℚ)} {amount : ℚ} {id : String}

theorem paidOf_cons (line : QuoteLine ℚ) (rest : List (QuoteLine ℚ)) (amount : ℚ) (id : String) :
    paidOf (line :: rest) amount id =
      (if line.ruleId = id then line.rate * amount else 0) + paidOf rest amount id := by
  unfold paidOf
  by_cases h : line.ruleId = id <;> simp [h]

theorem paidOf_eq_zero (h : ∀ line ∈ lines, line.ruleId ≠ id) : paidOf lines amount id = 0 := by
  have hnone : lines.filter (·.ruleId = id) = [] := by simpa using h
  rw [paidOf, hnone]
  rfl

/-- Lines without a rate add nothing. -/
theorem paidOf_le_paidOf_filter {pays : QuoteLine ℚ → Bool} (hamount : 0 ≤ amount)
    (h : ∀ line ∈ lines, line.ruleId = id → pays line = false → line.rate ≤ 0) :
    paidOf lines amount id ≤ paidOf (lines.filter pays) amount id := by
  induction lines with
  | nil => exact le_refl _
  | cons line rest ih =>
    obtain ⟨hline, hrest⟩ := List.forall_mem_cons.mp h
    have hle := ih hrest
    rw [paidOf_cons]
    cases hpays : pays line with
    | true =>
      rw [List.filter_cons_of_pos hpays, paidOf_cons]
      linarith
    | false =>
      rw [List.filter_cons_of_neg (by simp [hpays])]
      split
      next hid =>
        have := mul_nonpos_of_nonpos_of_nonneg (hline hid hpays) hamount
        linarith
      next => linarith

end Quote

/-! ## Quotes in which a rule comes first -/

namespace RuleBook

variable {scheme : Scheme ℚ} {card : Card} {amount : ℚ} {rawCategory : String}
  {mode : DisplayMode} {ledger : Ledger ℚ} {settings : Settings} {r : Rule ℚ} {cap : Cap ℚ}

/-- A rule of a rule book stands in it under its own id. -/
theorem rule?_of_mem_values (hr : r ∈ (ofScheme scheme).rules.values) :
    (ofScheme scheme).rule? r.id = some r := by
  obtain ⟨id, hid⟩ := Dict.mem_values_iff.mp hr
  rw [Rule.id_of_get?_compileAll hid]
  exact hid

/-- A line with a rate pays under a cap on rewards if its rule has one. -/
theorem paysUnderCap_of_rule {b : RuleBook ℚ} {line : QuoteLine ℚ}
    (hrule : b.rule? line.ruleId = some r) (hcap : r.cap? = some cap) (hmode : cap.mode = .reward) :
    b.paysUnderCap line = decide (0 < line.rate) := by
  simp [paysUnderCap, isRewardCapped, hrule, Rule.rewardLimits, hcap, Cap.rewardLimits, hmode]

/-- A position that charges a cap on rewards has a line that pays under it. -/
theorem exists_paysUnderCap {o : Occasion ℚ} {c : Contribution ℚ} (hamount : 0 < o.amount)
    (hc : c ∈ (ofScheme scheme).contributions o card) (h : c.rewardCharge ≠ none) :
    ∃ line, c.line = some line ∧ (ofScheme scheme).paysUnderCap line = true := by
  obtain ⟨position, hposition, rfl⟩ := exists_position_of_mem_contributions hc
  obtain ⟨charge, hcharge⟩ := Option.ne_none_iff_exists'.mp h
  obtain ⟨r, cap, line, hr, hcap, hmode, hline, hrate⟩ :=
    Occasion.line_of_rewardCharge hamount hcharge
  have hrule : (ofScheme scheme).rule? line.ruleId = some r := by
    rw [ruleId_of_line (rule?_of_mem_cardRules hposition).2 hline,
      (rule?_of_mem_cardRules hposition).2, hr]
  exact ⟨line, hline, by rw [paysUnderCap_of_rule hrule hcap hmode, decide_eq_true hrate]⟩

/-- The first line that pays under a cap on rewards comes from a position before which none charges
such a cap. -/
theorem exists_part_of_payers {o : Occasion ℚ} {line : QuoteLine ℚ} {others : List (QuoteLine ℚ)}
    (hamount : 0 < o.amount)
    (h : (Quote.linesOf ((ofScheme scheme).contributions o card)).filter
      (ofScheme scheme).paysUnderCap = line :: others) :
    ∃ before after position, position ∈ (ofScheme scheme).cardRules card ∧
      (ofScheme scheme).contributions o card = before ++
        o.contribution ((ofScheme scheme).replacer? o card).isSome position :: after ∧
      (o.contribution ((ofScheme scheme).replacer? o card).isSome position).line = some line ∧
      ∀ c ∈ before, c.rewardCharge = none := by
  obtain ⟨before, c, after, hsplit, hbefore, hc, -⟩ :=
    List.filterMap_eq_cons_iff.mp (List.filter_filterMap.symm.trans h)
  have hmem : ∀ c' ∈ before ++ c :: after, c' ∈ (ofScheme scheme).contributions o card :=
    fun c' hc' => hsplit ▸ hc'
  obtain ⟨position, hposition, rfl⟩ := exists_position_of_mem_contributions (hmem c (by simp))
  refine ⟨before, after, position, hposition, hsplit, (Option.filter_eq_some_iff.mp hc).1,
    fun c' hc' => ?_⟩
  by_contra hne
  obtain ⟨line', hline', hpays'⟩ := exists_paysUnderCap hamount (hmem c' (by simp [hc'])) hne
  have hnone := hbefore c' hc'
  simp [hline', hpays'] at hnone

/-- What a rule under a cap on rewards pays, it pays by the lines that pay under such caps. -/
theorem paid_le_paidOf_filter {b : RuleBook ℚ} {q : Quote ℚ} (hamount : 0 ≤ q.amount)
    (hrule : b.rule? r.id = some r) (hcap : r.cap? = some cap) (hmode : cap.mode = .reward) :
    q.paid r.id ≤ Quote.paidOf (q.lines.filter b.paysUnderCap) q.amount r.id := by
  refine Quote.paidOf_le_paidOf_filter hamount fun other _ hother hnot => ?_
  rw [paysUnderCap_of_rule (hother.symm ▸ hrule) hcap hmode, decide_eq_false_iff_not] at hnot
  exact not_lt.mp hnot

/-- If only the first of the lines that pay under caps on rewards is one of a rule, the rule pays no
more than that line does. -/
theorem paid_le_of_payers {b : RuleBook ℚ} {q : Quote ℚ} {line : QuoteLine ℚ}
    {others : List (QuoteLine ℚ)} (hamount : 0 ≤ q.amount) (hrule : b.rule? r.id = some r)
    (hcap : r.cap? = some cap) (hmode : cap.mode = .reward) (hid : line.ruleId = r.id)
    (hlines : q.lines.filter b.paysUnderCap = line :: others)
    (hothers : r.id ∉ others.map (·.ruleId)) : q.paid r.id ≤ line.rate * q.amount := by
  have hnone : ∀ other ∈ others, other.ruleId ≠ r.id :=
    fun other hother heq => hothers (heq ▸ List.mem_map_of_mem hother)
  have hle := paid_le_paidOf_filter hamount hrule hcap hmode
  rwa [hlines, Quote.paidOf_cons, if_pos hid, Quote.paidOf_eq_zero hnone, add_zero] at hle

/-- If a rule comes first in a quote, then it pays no more than a reward that it grants and that the
quote charges to its cap. -/
theorem charge_of_paysFirst {q : Quote ℚ}
    (hq : q = (ofScheme scheme).quote card amount rawCategory mode ledger settings)
    (hamount : 0 < amount) (hr : r ∈ (ofScheme scheme).rules.values) (hcap : r.cap? = some cap)
    (hmode : cap.mode = .reward) (h : (ofScheme scheme).PaysFirst q r.id) :
    let o := (ofScheme scheme).occasion card amount rawCategory ledger settings
    ∃ rate reward, o.Grants r rate cap reward ∧ ⟨cap.key, reward⟩ ∈ q.charges ∧
      q.paid r.id ≤ reward := by
  intro o
  have hrule := rule?_of_mem_values hr
  obtain ⟨hhead, hothers⟩ := h
  obtain ⟨rest, hpayers⟩ := List.head?_eq_some_iff.mp hhead
  rw [hpayers, List.tail_cons] at hothers
  obtain ⟨line, others, hlines, hid, rfl⟩ := List.map_eq_cons_iff.mp hpayers
  have hrate : 0 < line.rate := by
    have hpays : (ofScheme scheme).paysUnderCap line = true :=
      (List.mem_filter.mp (hlines ▸ List.mem_cons_self ..)).2
    rwa [paysUnderCap_of_rule (hid.symm ▸ hrule) hcap hmode, decide_eq_true_eq] at hpays
  have hqamount : q.amount = amount := by rw [hq]; rfl
  have hpaid := paid_le_of_payers (hqamount ▸ hamount.le) hrule hcap hmode hid hlines hothers
  rw [hqamount] at hpaid
  rw [hq] at hlines
  -- the position that the first paying line comes from holds the rule
  obtain ⟨before, after, position, hposition, hsplit, hline, hbefore⟩ :=
    exists_part_of_payers hamount hlines
  have hr' : position.2 = some r := by
    have hat := (rule?_of_mem_cardRules hposition).2
    rw [← hat, ← ruleId_of_line hat hline, hid, hrule]
  have hcharge := Occasion.rewardCharge_of_line hamount hr' hcap hmode hline hrate
  obtain ⟨r', rate, cap', reward, hr'', hgrants, heq⟩ :=
    Occasion.rewardCharge_eq_some_iff.mp hcharge
  obtain rfl : r = r' := Option.some.inj (hr'.symm.trans hr'')
  obtain rfl : cap = cap' := by
    obtain ⟨composition, heffect⟩ := hgrants.effect
    rw [Rule.cap?, heffect] at hcap
    exact (Option.some.inj hcap).symm
  obtain rfl : line.rate * amount = reward := (Prod.mk.inj (Prod.mk.inj heq).2).2
  -- no position before it charges a cap on rewards, so the quote charges what this one does
  have hfirst : q.capCharge = .reward cap.key (cap.secondary.map (·.key)) (line.rate * amount) := by
    rw [hq]
    exact Quote.capChargeOf_eq_reward_iff.mpr (List.findSome?_eq_some_iff.mpr
      ⟨before, _, after, hsplit, hcharge, hbefore⟩)
  have hpos : 0 < line.rate * amount := hgrants.pos
  exact ⟨rate, line.rate * amount, hgrants, by simp [Quote.charges, Quote.capCharges, hfirst, hpos],
    hpaid⟩

/-- A rule that pays anything by a quote is among those that pay under caps on rewards. -/
theorem mem_payers_of_paid {b : RuleBook ℚ} {q : Quote ℚ} (hamount : 0 ≤ q.amount)
    (hrule : b.rule? r.id = some r) (hcap : r.cap? = some cap) (hmode : cap.mode = .reward)
    (hpaid : 0 < q.paid r.id) : r.id ∈ b.payers q := by
  by_contra hnone
  have hothers : ∀ line ∈ q.lines.filter b.paysUnderCap, line.ruleId ≠ r.id :=
    fun line hline heq => hnone (List.mem_map.mpr ⟨line, hline, heq⟩)
  have hle := paid_le_paidOf_filter hamount hrule hcap hmode
  rw [Quote.paidOf_eq_zero hothers] at hle
  exact absurd hpaid (not_lt.mpr hle)

/-- The rules that pay under caps on rewards by a quote stand in the order of the card. -/
theorem payers_sublist (scheme : Scheme ℚ) (card : Card) (amount : ℚ) (rawCategory : String)
    (mode : DisplayMode) (ledger : Ledger ℚ) (settings : Settings) :
    ((ofScheme scheme).payers
      ((ofScheme scheme).quote card amount rawCategory mode ledger settings)).Sublist
      (card.rules.filter (ofScheme scheme).isRewardCapped) := by
  have hlines := ruleIds_sublist scheme card amount rawCategory mode ledger settings
  refine List.Sublist.trans ?_ (hlines.filter (ofScheme scheme).isRewardCapped)
  rw [List.filter_map]
  refine List.Sublist.map _ (List.monotone_filter_right _ fun line hpays => ?_)
  exact (Bool.and_eq_true_iff.mp hpays).2

/-- A rule that its card lists first comes first in every quote by which it pays anything. -/
theorem paysFirst_of_listedFirst {q : Quote ℚ}
    (hq : q = (ofScheme scheme).quote card amount rawCategory mode ledger settings)
    (hamount : 0 < amount) (hr : r ∈ (ofScheme scheme).rules.values) (hcap : r.cap? = some cap)
    (hmode : cap.mode = .reward) (h : (ofScheme scheme).ListedFirst card r.id)
    (hpaid : 0 < q.paid r.id) : (ofScheme scheme).PaysFirst q r.id := by
  have hqamount : q.amount = amount := by rw [hq]; rfl
  have hmem := mem_payers_of_paid (hqamount ▸ hamount.le) (rule?_of_mem_values hr) hcap hmode hpaid
  have hsub : ((ofScheme scheme).payers q).Sublist
      (card.rules.filter (ofScheme scheme).isRewardCapped) := by
    rw [hq]
    exact payers_sublist scheme card amount rawCategory mode ledger settings
  obtain ⟨hhead, htail⟩ := h (List.mem_filter.mp (hsub.subset hmem)).1
  obtain ⟨rest, hlisted⟩ := List.head?_eq_some_iff.mp hhead
  rw [hlisted] at hsub htail
  rcases List.sublist_cons_iff.mp hsub with hrest | ⟨others, hpayers, hothers⟩
  · exact absurd (hrest.subset hmem) htail
  · rw [PaysFirst, hpayers]
    exact ⟨rfl, fun hagain => htail (hothers.subset hagain)⟩

/-! ## Runs -/

/-- What a rule has paid, in any of the quotes booked in which it comes first whenever it pays, is
no more than its limit and no more than its counter stands at. -/
def PaysWithin (b : RuleBook ℚ) (r : Rule ℚ) (cap : Cap ℚ) (booked : List (Quote ℚ))
    (p : Profile ℚ) : Prop :=
  ∀ qs : List (Quote ℚ), qs.Sublist booked → (∀ q ∈ qs, 0 < q.paid r.id → b.PaysFirst q r.id) →
    (qs.map (·.paid r.id)).sum ≤ p.ledger.get cap.key ∧ (qs.map (·.paid r.id)).sum ≤ cap.limit

/-- Booking one more quote keeps what a rule has paid within its limit and its counter. -/
theorem paysWithin_book {p : Profile ℚ} {booked : List (Quote ℚ)} {q : Quote ℚ}
    (hq : q = (ofScheme scheme).quote card amount rawCategory mode p.ledger p.settings)
    (hamount : 0 < amount) (hr : r ∈ (ofScheme scheme).rules.values) (hcap : r.cap? = some cap)
    (hmode : cap.mode = .reward) (h : (ofScheme scheme).PaysWithin r cap booked p) :
    (ofScheme scheme).PaysWithin r cap (booked ++ [q]) (p.book q) := by
  intro qs hqs hfirst
  obtain ⟨earlier, last, rfl, hearlier, hlast⟩ := List.sublist_append_iff.mp hqs
  obtain ⟨hfirst, hfirstLast⟩ := List.forall_mem_append.mp hfirst
  obtain ⟨hcounter, hlimit⟩ := h earlier hearlier hfirst
  have hqamount : q.amount = amount := by rw [hq]; rfl
  have hdelta := Quote.delta_nonneg (q := q) (hqamount ▸ hamount.le)
  have hgrows : (p.book q).ledger.get cap.key =
      p.ledger.get cap.key + Charge.total q.charges cap.key := Ledger.get_post _ _ _
  have hnonneg := Charge.total_nonneg hdelta cap.key
  rw [hgrows, List.map_append, List.sum_append]
  rcases List.sublist_singleton.mp hlast with rfl | rfl
  · rw [List.map_nil, List.sum_nil, add_zero]
    exact ⟨hcounter.trans (le_add_of_nonneg_right hnonneg), hlimit⟩
  · rw [List.map_singleton, List.sum_singleton]
    -- what the rule pays by the last quote is either charged to its counter, and fits, or nothing
    by_cases hpaid : 0 < q.paid r.id
    · obtain ⟨rate, reward, hgrants, hcharged, hle⟩ :=
        charge_of_paysFirst hq hamount hr hcap hmode
          (hfirstLast q (List.mem_singleton_self q) hpaid)
      have hlimits : (⟨cap.key, cap.limit⟩ : Limit ℚ) ∈ cap.rewardLimits := by
        simp [Cap.rewardLimits, hmode]
      have hfits : p.ledger.get cap.key + reward ≤ cap.limit := hgrants.used_add_le hlimits
      have htotal : reward ≤ Charge.total q.charges cap.key := Charge.delta_le_total hdelta hcharged
      constructor <;> linarith
    · constructor <;> linarith

theorem paysWithin_of_moves {p p' : Profile ℚ} {step : Step ℚ} {before : List (Quote ℚ)}
    {booked : Option (Quote ℚ)} (hr : r ∈ (ofScheme scheme).rules.values)
    (hcap : r.cap? = some cap) (hmode : cap.mode = .reward) (hkeeps : step.resets = false)
    (hmoves : (ofScheme scheme).Moves p step booked p')
    (h : (ofScheme scheme).PaysWithin r cap before p) :
    (ofScheme scheme).PaysWithin r cap (before ++ booked.toList) p' := by
  cases hmoves with
  | idle | chosen =>
    rw [Option.toList_none, List.append_nil]
    exact h
  | booked step card amount rawCategory mode listed vetted =>
    exact paysWithin_book rfl (not_le.mp (not_le_zero_of_vet vetted)) hr hcap hmode h
  | advanced | reset => simp [Step.resets] at hkeeps

end RuleBook

/-- **A rule under a cap on rewards pays no more than its limit** in the quotes in which it comes
first: over every run on an empty ledger of steps that are not stale and set no counter back, what
it pays by any of the quotes booked adds up to no more than the limit, if it comes first among the
rules under caps on rewards in each of them by which it pays anything. If every card that lists it
lists it first among the rules under caps on rewards, and once, then all that it pays by the quotes
booked adds up to no more than the limit. -/
theorem Session.paid_within_limit {σ : Type} [ProfileStore σ ℚ] {scheme : Scheme ℚ} {r : Rule ℚ}
    {cap : Cap ℚ} (hr : r ∈ (RuleBook.ofScheme scheme).rules.values) (hcap : r.cap? = some cap)
    (hmode : cap.mode = .reward) {s : Session σ ℚ} (hbook : s.book = .ofScheme scheme)
    (hempty : s.account.profile.ledger = .empty) {steps : List (Step ℚ)}
    (hsteps : ∀ step ∈ steps, step.isStale = false ∧ step.resets = false) :
    (∀ qs : List (Quote ℚ), qs.Sublist (s.bookings steps) →
      (∀ q ∈ qs, 0 < q.paid r.id → (RuleBook.ofScheme scheme).PaysFirst q r.id) →
      (qs.map (·.paid r.id)).sum ≤ cap.limit) ∧
    ((∀ card ∈ scheme.cards, (RuleBook.ofScheme scheme).ListedFirst card r.id) →
      ((s.bookings steps).map (·.paid r.id)).sum ≤ cap.limit) := by
  have hfresh : ∀ step ∈ steps, step.isStale = false := fun step hstep => (hsteps step hstep).1
  have hlimit : 0 ≤ cap.limit := not_lt.mp (Rule.sound_of_mem_compileAll hr hcap).limit.2
  have hstart : (RuleBook.ofScheme scheme).PaysWithin r cap [] s.account.profile := by
    intro qs hqs _
    obtain rfl := List.sublist_nil.mp hqs
    rw [hempty]
    exact ⟨le_refl 0, hlimit⟩
  have hwithin : (RuleBook.ofScheme scheme).PaysWithin r cap (s.bookings steps)
      (s.after steps).account.profile :=
    bookings_induction [] hbook hfresh
      (fun step hstep qs p booked p' hmoves h =>
        RuleBook.paysWithin_of_moves hr hcap hmode (hsteps step hstep).2 hmoves h) hstart
  refine ⟨fun qs hqs hfirst => (hwithin qs hqs hfirst).2, fun hlisted => ?_⟩
  refine (hwithin _ (List.Sublist.refl _) fun q hq hpaid => ?_).2
  obtain ⟨card, hcard, amount, rawCategory, mode, ledger, settings, hamount, heq⟩ :=
    evaluates_of_mem_bookings hbook hfresh q hq
  exact RuleBook.paysFirst_of_listedFirst heq (not_le.mp hamount) hr hcap hmode
    (hlisted card hcard) hpaid

/-- Two dining rules on one card, each under a cap on rewards of its own. -/
def twoCaps : Scheme ℚ :=
  Sample.single
    [(RuleSpec.flat "big" (1 / 10) ["dining"]).capped .reward "big_cap" 1000,
      (RuleSpec.flat "small" (1 / 10) ["dining"]).capped .reward "small_cap" 10]

/-- The same dining purchase booked twice. -/
def diningTwice (amount : ℚ) : List (Step ℚ) :=
  let purchase : Step ℚ := .commitCard "card" ⟨"dining", amount, .cash⟩
  [purchase, purchase]

/-- The rule that comes first pays all of its limit by two large purchases and nothing beyond. -/
theorem Session.paid_within_limit_twoCaps :
    let b : RuleBook ℚ := .ofScheme twoCaps
    let s : Session (MemoryStore ℚ) ℚ := ⟨b, ⟨.empty, ⟨.empty⟩⟩, []⟩
    let cap : Cap ℚ := ⟨.configured "big_cap", 1000, .reward, none⟩
    let quotes := s.bookings (diningTwice 8000)
    ∃ r ∈ b.rules.values, r.id = "big" ∧ r.cap? = some cap ∧
      (∀ step ∈ diningTwice 8000, step.isStale = false ∧ step.resets = false) ∧
      (∀ q ∈ quotes, 0 < q.paid r.id → b.PaysFirst q r.id) ∧
      (∀ card ∈ twoCaps.cards, b.ListedFirst card r.id) ∧
      quotes.map (·.paid r.id) = [800, 200] ∧ (quotes.map (·.paid r.id)).sum ≤ cap.limit := by
  intro b s cap quotes
  let r : Rule ℚ :=
    .ofSpec ((RuleSpec.flat "big" (1 / 10) ["dining"]).capped .reward "big_cap" 1000)
  have hr : r ∈ b.rules.values := by decide +kernel
  have hcap : r.cap? = some cap := by decide +kernel
  have hsteps : ∀ step ∈ diningTwice 8000, step.isStale = false ∧ step.resets = false := by
    decide +kernel
  have hfirst : ∀ q ∈ quotes, 0 < q.paid r.id → b.PaysFirst q r.id := by decide +kernel
  have hlisted : ∀ card ∈ twoCaps.cards, b.ListedFirst card r.id := by decide +kernel
  obtain ⟨-, hall⟩ := Session.paid_within_limit hr hcap rfl (s := s) rfl rfl hsteps
  exact ⟨r, hr, by decide +kernel, hcap, hsteps, hfirst, hlisted, by decide +kernel, hall hlisted⟩

/-- The rule that comes second pays its limit by each of two purchases, though no other rule uses
its counter: that the rule comes first cannot be left out. -/
theorem Session.paid_beyond_limit :
    let b : RuleBook ℚ := .ofScheme twoCaps
    let s : Session (MemoryStore ℚ) ℚ := ⟨b, ⟨.empty, ⟨.empty⟩⟩, []⟩
    let cap : Cap ℚ := ⟨.configured "small_cap", 10, .reward, none⟩
    let quotes := s.bookings (diningTwice 100)
    ∃ r ∈ b.rules.values, r.cap? = some cap ∧
      (∀ other ∈ b.rules.values, other.id ≠ r.id → ∀ use ∈ other.capUses, use.key ≠ cap.key.text) ∧
      quotes.map (·.paid r.id) = [10, 10] ∧ cap.limit < (quotes.map (·.paid r.id)).sum := by
  intro b s cap quotes
  let r : Rule ℚ :=
    .ofSpec ((RuleSpec.flat "small" (1 / 10) ["dining"]).capped .reward "small_cap" 10)
  refine ⟨r, ?_, ?_, ?_, ?_, ?_⟩ <;> decide +kernel

end CardRewards
