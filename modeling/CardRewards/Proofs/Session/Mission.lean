import CardRewards.Proofs.Quote.Gate
import CardRewards.Proofs.Quote.Multiplicity
import CardRewards.Proofs.Quote.Ranking
import CardRewards.Proofs.Session.Tier

/-!
# Missions along a run

A mission is written to in one place and read in another: an observer tags what is spent on its
card, booking charges the tag to a counter, and a gate looks at the counter when a rule is evaluated
later, perhaps on another card. `Session.mission_of_run` says that they meet.

For that a run is told by what it evaluated and booked (`Session.booked`): the card, the purchase
and the profile that it was evaluated for. Whether such an evaluation counts for a mission
(`Evaluation.countsFor`) is a matter of the observers on its card.
-/

namespace CardRewards

/-! ## What counts for a mission -/

/-- A purchase on a card, evaluated for a profile. -/
structure Evaluation (α : Type) where
  card : Card
  purchase : Purchase α
  profile : Profile α

namespace Evaluation

variable {α : Type} [Amount α]

/-- What the evaluation depends on besides the card. -/
def occasion (e : Evaluation α) (b : RuleBook α) : Occasion α :=
  b.occasion e.card e.purchase.amount e.purchase.category e.profile.ledger e.profile.settings

/-- What the evaluation comes to. -/
def quote (e : Evaluation α) (b : RuleBook α) : Quote α :=
  b.quote e.card e.purchase.amount e.purchase.category e.purchase.mode e.profile.ledger
    e.profile.settings

/-- Whether the purchase counts for a mission: the card has an observer of the mission whose gates
let it apply, and the category matches those of the observer, or it has none. -/
def countsFor (b : RuleBook α) (mission : String) (e : Evaluation α) : Bool :=
  (b.rulesOf e.card).any fun r => (e.occasion b).observes mission r && (e.occasion b).hitsOrOpen r

end Evaluation

namespace RuleBook

variable {α : Type} [Amount α] {b : RuleBook α} {mission : String}

/-- On no card do two rules observe the mission. -/
def SoleObservers (b : RuleBook α) (mission : String) : Prop :=
  ∀ card ∈ b.scheme.cards, (b.rulesOf card).countP (·.observed? = some mission) ≤ 1

instance (b : RuleBook α) (mission : String) : Decidable (b.SoleObservers mission) :=
  inferInstanceAs (Decidable (∀ card ∈ b.scheme.cards, _))

/-- A purchase is charged to what counts for a mission once if it counts, and else not at all. -/
theorem deltas_eligible_of_sole (sole : b.SoleObservers mission)
    (apart : .missionEligible mission ∉ b.capKeys) {e : Evaluation α}
    (listed : e.card ∈ b.scheme.cards) :
    Charge.deltas (e.quote b).charges (.missionEligible mission) =
      if e.countsFor b mission then [e.purchase.amount] else [] := by
  have hcap : .missionEligible mission ∉ b.capKeysOf e.card :=
    fun h => apart (b.capKeysOf_subset e.card h)
  refine (deltas_eligible hcap).trans ?_
  show List.replicate ((b.rulesOf e.card).countP fun r =>
    (e.occasion b).observes mission r && (e.occasion b).hitsOrOpen r) e.purchase.amount = _
  -- whoever counts the purchase observes the mission, and at most one rule of the card does
  have hle : ((b.rulesOf e.card).countP fun r =>
      (e.occasion b).observes mission r && (e.occasion b).hitsOrOpen r) ≤ 1 := by
    refine (List.countP_mono_left fun r _ h => ?_).trans (sole e.card listed)
    exact (Bool.and_eq_true_iff.mp (Bool.and_eq_true_iff.mp h).1).1
  cases hcounts : e.countsFor b mission with
  | true =>
    have hpos := List.countP_pos_iff.mpr (List.any_eq_true.mp hcounts)
    rw [Nat.le_antisymm hle hpos]
    rfl
  | false =>
    have hzero := List.countP_eq_zero.mpr (List.any_eq_false.mp hcounts)
    rw [hzero]
    rfl

/-- The card held whose quote is ranked first. -/
def bestCard? (b : RuleBook α) (p : Purchase α) (profile : Profile α) : Option Card :=
  (b.scheme.ownedCards.mergeSort fun c d =>
    Quote.ranksBefore p.mode ((⟨c, p, profile⟩ : Evaluation α).quote b)
      ((⟨d, p, profile⟩ : Evaluation α).quote b)).head?

/-- The first of the ranked quotes is that of the card ranked first. -/
theorem head?_quoteAll {p : Purchase α} {profile : Profile α} {quotes : List (Quote α)}
    (h : b.quoteAll p.amount p.category p.mode profile = .ok quotes) :
    quotes.head? =
      (b.bestCard? p profile).map fun card => (⟨card, p, profile⟩ : Evaluation α).quote b := by
  obtain ⟨-, rfl⟩ := quoteAll_eq_ok_iff.mp h
  rw [Quote.rank, map_project_quote, bestCard?, ← List.head?_map]
  refine congrArg List.head? (Eq.symm ?_)
  exact List.map_mergeSort fun c _ d _ => rfl

theorem mem_of_bestCard? {p : Purchase α} {profile : Profile α} {card : Card}
    (h : b.bestCard? p profile = some card) : card ∈ b.scheme.cards :=
  (List.mem_filter.mp (List.mem_mergeSort.mp (List.mem_of_mem_head? h))).1

end RuleBook

/-! ## What a run books -/

namespace Session

variable {σ α : Type} [Amount α] [ProfileStore σ α]

/-- The evaluation that a step sets out to book. -/
def evaluation? (s : Session σ α) : Step α → Option (Evaluation α)
  | .commitCard id p => (s.book.scheme.card? id).map fun card => ⟨card, p, s.account.profile⟩
  | .commitBest p =>
    (s.book.bestCard? p s.account.profile).map fun card => ⟨card, p, s.account.profile⟩
  | _ => none

/-- The evaluation that a step books: the one that it sets out to book, if the step succeeds. -/
def bookedBy? (s : Session σ α) (step : Step α) : Option (Evaluation α) :=
  if (s.run step).1.isOk then s.evaluation? step else none

/-- The evaluations that some steps book, in order. -/
def booked (s : Session σ α) : List (Step α) → List (Evaluation α)
  | [] => []
  | step :: rest => (s.bookedBy? step).toList ++ booked (s.run step).2 rest

variable {s : Session σ α} {step : Step α} {e : Evaluation α}

theorem listed_of_bookedBy? (h : s.bookedBy? step = some e) : e.card ∈ s.book.scheme.cards := by
  unfold bookedBy? at h
  split at h
  next =>
    cases step with
    | commitCard id p =>
      obtain ⟨card, hcard, rfl⟩ := Option.map_eq_some_iff.mp h
      exact List.mem_of_find?_eq_some hcard
    | commitBest p =>
      obtain ⟨card, hcard, rfl⟩ := Option.map_eq_some_iff.mp h
      exact RuleBook.mem_of_bestCard? hcard
    | _ => exact nomatch h
  next => exact nomatch h

/-- A step that is not stale books the quote of the evaluation that it books. -/
theorem booked?_eq_map_bookedBy? (h : step.isStale = false) :
    s.booked? step = (s.bookedBy? step).map (·.quote s.book) := by
  unfold booked? bookedBy?
  split
  next hok =>
    cases step with
    | commitCard id p =>
      cases hquote : s.quoteFor id p with
      | error fault => simp [run, hquote, Except.isOk, Except.toBool] at hok
      | ok q =>
        -- the quote that is booked is that of the card found under the id
        obtain ⟨-, card, hcard, rfl⟩ := RuleBook.quoteCard_eq_ok_iff.mp hquote
        rw [picked?, hquote, evaluation?, hcard]
        rfl
    | commitBest p =>
      cases hquotes : s.quotesFor p with
      | error fault => simp [run, hquotes, Except.isOk, Except.toBool] at hok
      | ok quotes =>
        rw [picked?, hquotes, evaluation?, Option.map_map]
        exact RuleBook.head?_quoteAll hquotes
    | commitKept | commitQuote | reload => exact absurd h.symm Bool.false_ne_true
    | _ => rfl
  next => rfl

end Session

/-! ## The counter along a run -/

namespace RuleBook

variable {α : Type} [Amount α] {b : RuleBook α} {p p' : Profile α} {step : Step α}
  {mission : String}

theorem Moves.eq_book {q : Quote α} (h : b.Moves p step (some q) p') : p' = p.book q := by
  cases h
  rfl

/-- A step that books nothing keeps what counts for a mission, unless it sets that counter back:
moving up sets back the counters of the tier program only. -/
theorem Moves.eligible_eq (h : b.Moves p step none p')
    (kept : step ≠ .reset (.missionEligible mission)) :
    p'.ledger.get (.missionEligible mission) = p.ledger.get (.missionEligible mission) := by
  cases h with
  | idle | chosen => rfl
  | advanced program offered =>
    have hspend : CounterKey.missionEligible mission ≠ .tierSpend program.id :=
      CounterSort.key_ne (s := .missionEligible) (t := .tierSpend) (by decide) _ _
    have hreward : CounterKey.missionEligible mission ≠ .tierReward program.id :=
      CounterSort.key_ne (s := .missionEligible) (t := .tierReward) (by decide) _ _
    exact ((program.movedUp_advance p).others _ hspend hreward).1
  | reset key =>
    have hkey : CounterKey.missionEligible mission ≠ key := fun heq => kept (by rw [heq])
    exact (Ledger.get_reset _ _ _).trans (if_neg hkey)

end RuleBook

namespace Session

variable {σ α : Type} [Amount α] [ProfileStore σ α] {s : Session σ α} {mission : String}

/-- What has been booked that counts for a mission, added up in order. -/
def progressIn (s : Session σ α) (mission : String) (steps : List (Step α)) (start : α) : α :=
  (((s.booked steps).filter (·.countsFor s.book mission)).map (·.purchase.amount)).foldl (· + ·)
    start

theorem progressIn_cons (s : Session σ α) (mission : String) (step : Step α)
    (rest : List (Step α)) (start : α) :
    s.progressIn mission (step :: rest) start =
      (s.run step).2.progressIn mission rest
        (match s.bookedBy? step with
        | some e => if e.countsFor s.book mission then start + e.purchase.amount else start
        | none => start) := by
  unfold progressIn
  rw [book_run, booked]
  cases s.bookedBy? step with
  | none => rfl
  | some e =>
    rw [Option.toList_some, List.singleton_append, List.filter_cons]
    by_cases hcounts : e.countsFor s.book mission = true
    · simp only [if_pos hcounts, List.map_cons, List.foldl_cons]
    · simp only [if_neg hcounts]

/-- One step adds the amount that it books to the counter if it counts for the mission. -/
theorem eligible_run (sole : s.book.SoleObservers mission)
    (apart : .missionEligible mission ∉ s.book.capKeys) {step : Step α}
    (fresh : step.isStale = false) (kept : step ≠ .reset (.missionEligible mission)) :
    (s.run step).2.account.profile.ledger.get (.missionEligible mission) =
      match s.bookedBy? step with
      | some e =>
        if e.countsFor s.book mission then
          s.account.profile.ledger.get (.missionEligible mission) + e.purchase.amount
        else s.account.profile.ledger.get (.missionEligible mission)
      | none => s.account.profile.ledger.get (.missionEligible mission) := by
  have hmoves := moves_run (s := s) fresh
  rw [booked?_eq_map_bookedBy? fresh] at hmoves
  cases hbooked : s.bookedBy? step with
  | none =>
    rw [hbooked] at hmoves
    exact hmoves.eligible_eq kept
  | some e =>
    rw [hbooked, Option.map_some] at hmoves
    rw [hmoves.eq_book]
    show (s.account.profile.ledger.post _).get _ = _
    rw [Ledger.get_post_eq_foldl,
      RuleBook.deltas_eligible_of_sole sole apart (listed_of_bookedBy? hbooked)]
    simp only
    split <;> rfl

theorem eligible_after (sole : s.book.SoleObservers mission)
    (apart : .missionEligible mission ∉ s.book.capKeys) {steps : List (Step α)}
    (fresh : ∀ step ∈ steps, step.isStale = false)
    (kept : .reset (.missionEligible mission) ∉ steps) :
    (s.after steps).account.profile.ledger.get (.missionEligible mission) =
      s.progressIn mission steps (s.account.profile.ledger.get (.missionEligible mission)) := by
  induction steps generalizing s with
  | nil => rfl
  | cons step rest ih =>
    obtain ⟨hstep, hrest⟩ := List.forall_mem_cons.mp fresh
    obtain ⟨hkeeps, hkept⟩ := List.ne_and_not_mem_of_not_mem_cons kept
    -- the rest of the run starts from the counter that the first step leaves
    have hnext := ih (s := (s.run step).2) (by rw [book_run]; exact sole)
      (by rw [book_run]; exact apart) hrest hkept
    rw [eligible_run sole apart hstep hkeeps.symm] at hnext
    rw [progressIn_cons]
    exact hnext

end Session

/-! ## Missions and gates -/

namespace Session

variable {σ α : Type} [Amount α] [ProfileStore σ α] {s : Session σ α} {mission : String}
  {steps : List (Step α)}

/-- **A mission and its gates along a run** of steps that evaluate and book what they evaluated, set
back other counters or change settings, from a ledger in which nothing counts for the mission yet.
If no card has two observers of the mission and no cap names its counter, then after every step the
counter stands at the amounts, added up in order, of the purchases booked that count for the mission.
And a rule whose gate names the mission, where nothing but the mission keeps it from applying, is
shown locked with that sum as long as it is below what the gate requires, and else contributes what
it does. -/
theorem mission_of_run (named : mission ≠ "") (sole : s.book.SoleObservers mission)
    (apart : .missionEligible mission ∉ s.book.capKeys)
    (start : s.account.profile.ledger.get (.missionEligible mission) = 0)
    (fresh : ∀ step ∈ steps, step.isStale = false)
    (kept : .reset (.missionEligible mission) ∉ steps) (n : ℕ) :
    let ledger := (s.after (steps.take n)).account.profile.ledger
    let progress := (((s.booked (steps.take n)).filter (·.countsFor s.book mission)).map
      (·.purchase.amount)).foldl (· + ·) 0
    ledger.get (.missionEligible mission) = progress ∧
      ∀ card spec required, spec.reqMissionId = some mission →
        spec.reqMissionSpend = some required → (Rule.ofSpec spec).isSupported = true →
        Rule.ofSpec spec ∈ s.book.rulesOf card →
        ∀ amount rawCategory mode settings,
          let r := Rule.ofSpec spec
          let o := s.book.occasion card amount rawCategory ledger settings
          let q := s.book.quote card amount rawCategory mode ledger settings
          let replaced := (s.book.replacer? o card).isSome
          o.AwaitsMission r →
            if progress < required then
              o.gateState r = .locked progress required ∧
                o.ruleContribution replaced r = .ofLine (r.lockedLine progress required) ∧
                r.lockedLine progress required ∈ q.lines
            else
              o.gateState r = .passed ∧ o.ruleContribution replaced r = o.applied replaced r ∧
                ∀ line ∈ (o.applied replaced r).line, line ∈ q.lines := by
  intro ledger progress
  have hcounter : ledger.get (.missionEligible mission) = progress := by
    have hfresh : ∀ step ∈ steps.take n, step.isStale = false :=
      fun step hstep => fresh step (List.mem_of_mem_take hstep)
    have hafter := eligible_after sole apart hfresh fun hstep => kept (List.mem_of_mem_take hstep)
    rw [start] at hafter
    exact hafter
  refine ⟨hcounter, fun card spec required hmission hrequired supported hr amount rawCategory mode
    settings => ?_⟩
  intro r o q replaced awaits
  have hgate := Rule.mission_ofSpec supported named hmission hrequired
  have hstate := awaits.gateState_eq hgate
  have hcontribution := awaits.ruleContribution_eq supported hgate replaced
  have hlines : ∀ line ∈ (o.ruleContribution replaced r).line, line ∈ q.lines :=
    RuleBook.line_mem_quote hr amount rawCategory mode ledger settings
  -- the gate reads the counter that the observers have added up
  have hprogress : o.ledger.get (.missionEligible mission) = progress := hcounter
  simp only [hprogress] at hstate hcontribution
  by_cases hlocked : progress < required
  · rw [if_pos hlocked] at hstate hcontribution ⊢
    rw [hcontribution] at hlines
    exact ⟨hstate, hcontribution, hlines _ rfl⟩
  · rw [if_neg hlocked] at hstate hcontribution ⊢
    rw [hcontribution] at hlines
    exact ⟨hstate, hcontribution, hlines⟩

/-- A card on which dining counts for a mission, and another with a bonus that the mission locks. -/
def missionScheme : Scheme Binary64 :=
  { Sample.single
      [{ RuleSpec.ofKind "observer" .missionObserver with
          missionId := some "m"
          categories := ["dining"] },
        (RuleSpec.flat "bonus" (Sample.thousandths 30) ["travel"]).gatedByMission "m"
          (Sample.whole 8000)] with
    cards := [.held "daily" "cash" ["observer"], .held "airline" "cash" ["bonus"]] }

/-- Two purchases that count for the mission, and between them one in another category and one on the
card without an observer. -/
def missionSteps : List (Step Binary64) :=
  [.commitCard "daily" ⟨"dining", Sample.whole 5000, .cash⟩,
    .commitCard "daily" ⟨"travel", Sample.whole 1000, .cash⟩,
    .commitCard "airline" ⟨"dining", Sample.whole 100, .cash⟩,
    .commitCard "daily" ⟨"dining", Sample.whole 3000, .cash⟩]

/-- The bonus is shown locked at 5000 of the 8000 that it requires, and granted once exactly 8000
have been spent on the other card. -/
theorem mission_of_run_unlocked :
    let s : Session (MemoryStore Binary64) Binary64 :=
      ⟨.ofScheme missionScheme, ⟨.empty, ⟨.empty⟩⟩, []⟩
    let bonus : Rule Binary64 := .ofSpec
      ((RuleSpec.flat "bonus" (Sample.thousandths 30) ["travel"]).gatedByMission "m"
        (Sample.whole 8000))
    let ledger (n : ℕ) := (s.after (missionSteps.take n)).account.profile.ledger
    let lines (n : ℕ) := (s.book.quote (.held "airline" "cash" ["bonus"]) (Sample.whole 100)
      "travel" .cash (ledger n) .empty).lines
    (ledger 4).get (.missionEligible "m") = Sample.whole 8000 ∧
      bonus.lockedLine (Sample.whole 5000) (Sample.whole 8000) ∈ lines 3 ∧
      bonus.line .active (Sample.thousandths 30) ∈ lines 4 := by
  intro s bonus ledger lines
  have hnamed : "m" ≠ "" := by decide
  have hfresh : ∀ step ∈ missionSteps, step.isStale = false := by decide +kernel
  have hrun := mission_of_run (s := s) hnamed (by decide +kernel) (by decide +kernel)
    (by decide +kernel) hfresh (by simp [missionSteps])
  have hlisted : bonus ∈ s.book.rulesOf (.held "airline" "cash" ["bonus"]) := by decide +kernel
  have hsupported : bonus.isSupported = true := by decide +kernel
  have awaits (n : ℕ) : (s.book.occasion (.held "airline" "cash" ["bonus"]) (Sample.whole 100)
      "travel" (ledger n) .empty).AwaitsMission bonus := by
    have hungated : bonus.gates.toggle = none ∧ bonus.gates.minSingleSpend = none ∧
        bonus.gates.minSpend = none := by decide +kernel
    have hhits : s.book.scheme.hierarchy.isMatch bonus.categories
        (s.book.resolver.resolve "airline" "travel" .empty) = true := by decide +kernel
    exact ⟨⟨by simp [hungated.1], by simp [hungated.2.1], by simp [hungated.2.2]⟩, hhits⟩
  have hthree : (ledger 3).get (.missionEligible "m") = Sample.whole 5000 := by decide +kernel
  have hfour : (ledger 4).get (.missionEligible "m") = Sample.whole 8000 := by decide +kernel
  refine ⟨hfour, ?_, ?_⟩
  · obtain ⟨hcounter, hgate⟩ := hrun 3
    have hbonus := hgate _ _ (Sample.whole 8000) rfl rfl hsupported hlisted (Sample.whole 100)
      "travel" .cash .empty (awaits 3)
    rw [hcounter.symm.trans hthree, if_pos (by decide +kernel)] at hbonus
    exact hbonus.2.2
  · obtain ⟨hcounter, hgate⟩ := hrun 4
    have hbonus := hgate _ _ (Sample.whole 8000) rfl rfl hsupported hlisted (Sample.whole 100)
      "travel" .cash .empty (awaits 4)
    rw [hcounter.symm.trans hfour, if_neg (by decide +kernel)] at hbonus
    exact hbonus.2.2 _ (by decide +kernel)

end Session

end CardRewards
