import StoreTasks.Proofs.Timeframe.Exact

/-!
# Proofs — Timeframe — listed

Which timeframes a place in a request lists (`ListedAs`): none at all where nothing stands there,
also by null; those of a list, one for each item in order; and a single one by itself.  An empty
list lists no timeframes, which is not the same as listing nothing.

`listOfJson?_eq_ok_iff`: this is how such a place is read.
-/

namespace StoreTasks.Timeframe

open Calendar

/-- The specification is read as the timeframe today: it asks for the latest, or it describes it. -/
def ReadAs (today : Date) (spec : Json) (timeframe : Timeframe) : Prop :=
  spec = .str "latest" ∧ IsLatest today timeframe ∨ Describes spec today timeframe

/-- The timeframes that stand at a place. -/
inductive ListedAs (today : Date) : Option Json → Option (List Timeframe) → Prop where
  /-- Nothing stands there. -/
  | absent : ListedAs today none none
  /-- Null counts as nothing. -/
  | null : ListedAs today (some .null) none
  /-- A list has a timeframe for each of its items, in order. -/
  | list {items : List Json} {timeframes : List Timeframe}
      (read : List.Forall₂ (ReadAs today) items timeframes) :
      ListedAs today (some (.arr items)) (some timeframes)
  /-- Anything else is a single timeframe. -/
  | single {spec : Json} {timeframe : Timeframe} (read : ReadAs today spec timeframe) :
      ListedAs today (some spec) (some [timeframe])

variable {today : Date} {spec : Json} {timeframe : Timeframe}

/-- A timeframe is no list, and it is not null. -/
theorem ReadAs.ne (read : ReadAs today spec timeframe) :
    spec ≠ .null ∧ ∀ items, spec ≠ .arr items := by
  rcases read with ⟨rfl, -⟩ | described
  · simp
  · obtain ⟨members, rfl⟩ := described.exists_members
    simp

/-- Null and an absent value list nothing, a list lists each of its items, and a single value
itself. -/
theorem listOfJson?_eq_ok_iff {found : Option Json} {listed : Option (List Timeframe)} :
    listOfJson? found today = .ok listed ↔ ListedAs today found listed := by
  refine ⟨fun h => ?_, ?_⟩
  · unfold listOfJson? at h
    split at h
    · cases h
      exact .absent
    · cases h
      exact .null
    · obtain ⟨timeframes, hread, rfl⟩ := map_eq_ok_iff.mp h
      exact .list ((mapM_eq_ok_iff.mp hread).imp fun _ _ => ofJson_eq_ok_iff.mp)
    · obtain ⟨timeframe, hread, rfl⟩ := map_eq_ok_iff.mp h
      exact .single (ofJson_eq_ok_iff.mp hread)
  · intro h
    cases h with
    | absent => rfl
    | null => rfl
    | list read =>
        exact map_eq_ok_iff.mpr
          ⟨_, mapM_eq_ok_iff.mpr (read.imp fun _ _ => ofJson_eq_ok_iff.mpr), rfl⟩
    | single read =>
        unfold listOfJson?
        split
        · contradiction
        · next h => exact absurd (Option.some.inj h) read.ne.1
        · next h => exact absurd (Option.some.inj h) (read.ne.2 _)
        · next h =>
            cases h
            exact map_eq_ok_iff.mpr ⟨_, ofJson_eq_ok_iff.mpr read, rfl⟩

end StoreTasks.Timeframe
