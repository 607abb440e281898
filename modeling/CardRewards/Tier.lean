import CardRewards.Scheme.Program

/-!
# Moving to the next tier

A customer moves up one level at a time and not beyond the highest. The counters of the tier
program start again from zero, also for a customer who was at the top already.

In the requirements (§4.6) this is the tier progression, and a step a `TierAdvance`.
-/

namespace CardRewards

/-- A move to the next tier. -/
structure TierStep where
  previousLevel : UInt8
  level : UInt8
  /-- Whether the highest level had been reached before. -/
  wasAtTop : Bool
deriving DecidableEq

namespace TierProgram

variable {α : Type}

/-- The level after a level: one more, but at most the highest. -/
def nextLevel (p : TierProgram α) (level : UInt8) : UInt8 :=
  .ofNat (min (level.toNat + 1) p.maxLevel.toNat)

/-- The step that a customer on a level takes. -/
def stepFrom (p : TierProgram α) (level : UInt8) : TierStep :=
  ⟨level, p.nextLevel level, decide (p.maxLevel ≤ level)⟩

/-- The profile of a customer who has moved to the next tier. -/
def advance [Amount α] (p : TierProgram α) (profile : Profile α) : Profile α :=
  { profile with
    settings := { profile.settings with tierLevel := p.nextLevel profile.settings.tierLevel }
    ledger := (profile.ledger.reset (.tierSpend p.id)).reset (.tierReward p.id) }

/-- The next level is not cut off by its eight bits. -/
theorem toNat_nextLevel (p : TierProgram α) (level : UInt8) :
    (p.nextLevel level).toNat = min (level.toNat + 1) p.maxLevel.toNat := by
  have := p.maxLevel.toNat_lt
  simp only [nextLevel, UInt8.toNat_ofNat']
  omega

end TierProgram

end CardRewards
