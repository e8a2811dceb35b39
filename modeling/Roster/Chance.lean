/-!
# Random choices

Choices are drawn from a source of numbers, one number for each choice.  What
holds for every source holds whatever the choices are.
-/

namespace Roster

universe u

/-- A source of numbers and how many were drawn from it. -/
structure Chance where
  source : Nat → Nat
  drawn : Nat := 0

namespace Chance

/-- A number below a positive bound. -/
def below (chance : Chance) (bound : Nat) : Nat × Chance :=
  (chance.source chance.drawn % bound, { chance with drawn := chance.drawn + 1 })

/-- Put an item anywhere into a list. -/
def insertAnywhere {α : Type u} (item : α) (items : List α) (chance : Chance) :
    List α × Chance :=
  let (place, chance) := chance.below (items.length + 1)
  (items.take place ++ item :: items.drop place, chance)

/-- The items of a list in any order. -/
def shuffle {α : Type u} : List α → Chance → List α × Chance
  | [], chance => ([], chance)
  | item :: items, chance =>
      let (shuffled, chance) := shuffle items chance
      insertAnywhere item shuffled chance

def mix (seed : UInt64) : UInt64 :=
  let first := (seed ^^^ (seed >>> 30)) * 0xbf58476d1ce4e5b9
  let second := (first ^^^ (first >>> 27)) * 0x94d049bb133111eb
  second ^^^ (second >>> 31)

def ofSeed (seed : UInt64) : Chance where
  source index := (mix (seed + UInt64.ofNat (index + 1) * 0x9e3779b97f4a7c15)).toNat

end Chance

end Roster
