import Mathlib.Data.List.Basic
import VisualNovel.Affection.Watched

/-!
# What a table has on record

The ledger of a table says what is on record after any calls, counted over all integers:
sums do not stop at the ends of 32 bits, only what is stored is held within the range
(`onRecord`). A table has on record what its ledger says, and tells every observer of
every write (`WatchedTable.writes_exact`).
-/

namespace VisualNovel

-- ---------------------------------------------------------------------------
-- Amounts held within bounds
-- ---------------------------------------------------------------------------

/-- Held at the lower end first; bounds that are swapped hold everything at the upper. -/
def heldWithin (low high amount : Int) : Int :=
  min (max amount low) high

/-- What is stored of an amount. -/
def AffectionRange.hold (range : AffectionRange) (amount : Int) : Int :=
  heldWithin range.min.toInt range.max.toInt amount

theorem toInt_addSaturated (a b : Int32) :
    (addSaturated a b).toInt =
      heldWithin Int32.minValue.toInt Int32.maxValue.toInt (a.toInt + b.toInt) := by
  have hmin : Int32.minValue.toInt = -2 ^ 31 := rfl
  have hmax : Int32.maxValue.toInt = 2 ^ 31 - 1 := rfl
  simp only [addSaturated, heldWithin]
  split
  next => omega
  next =>
    split
    next => omega
    next =>
      rw [Int32.toInt_ofInt_of_le (by omega) (by omega)]
      omega

namespace AffectionRange

variable (range : AffectionRange)

theorem toInt_clamp (value : Int32) : (range.clamp value).toInt = range.hold value.toInt := by
  simp only [clamp, hold, heldWithin, Int32.lt_iff_toInt_lt]
  split <;> split <;> omega

/-- An amount held at the ends of 32 bits on the way is stored as if it had not been. -/
theorem hold_heldWithin (amount : Int) :
    range.hold (heldWithin Int32.minValue.toInt Int32.maxValue.toInt amount) =
      range.hold amount := by
  have hlow : Int32.minValue.toInt ≤ range.min.toInt := range.min.le_toInt
  have hhigh : range.max.toInt ≤ Int32.maxValue.toInt := range.max.toInt_le
  simp only [hold, heldWithin]
  omega

theorem hold_mem (h : range.min ≤ range.max) (amount : Int) :
    range.min.toInt ≤ range.hold amount ∧ range.hold amount ≤ range.max.toInt := by
  have hends : range.min.toInt ≤ range.max.toInt := Int32.le_iff_toInt_le.mp h
  simp only [hold, heldWithin]
  omega

theorem hold_of_swapped (h : range.max < range.min) (amount : Int) :
    range.hold amount = range.max.toInt := by
  have hends : range.max.toInt < range.min.toInt := Int32.lt_iff_toInt_lt.mp h
  simp only [hold, heldWithin]
  omega

end AffectionRange

-- ---------------------------------------------------------------------------
-- Calls
-- ---------------------------------------------------------------------------

/-- What can be asked of a watched table, besides reading it. -/
inductive TableCall where
  | set (character : String) (value : Int32)
  | change (character : String) (delta : Int32)
  | clear
  | observe
  deriving DecidableEq, Repr

/-- Whose affection a call writes. -/
def TableCall.writes? : TableCall → Option String
  | .set character _ | .change character _ => some character
  | .clear | .observe => none

namespace WatchedTable

def ofRange (range : AffectionRange) : WatchedTable :=
  { table := { range } }

/-- The table after a call, and who was told what. -/
def call (watched : WatchedTable) : TableCall → WatchedTable × List Notice
  | .set character value => watched.set character value
  | .change character delta => watched.change character delta
  | .clear => (watched.clear, [])
  | .observe => (watched.observe, [])

/-- The table after the calls, made one after another. -/
def after (watched : WatchedTable) (calls : List TableCall) : WatchedTable :=
  calls.foldl (fun watched call => (watched.call call).1) watched

theorem told_set (watched : WatchedTable) (character : String) (value : Int32) :
    (watched.set character value).2 = (List.range' 1 watched.observers).map
      (⟨·, character, watched.table.range.clamp value⟩) := by
  simp [set, notices, AffectionTable.get, List.range'_eq_map_range, Function.comp_def,
    Nat.add_comm]

end WatchedTable

-- ---------------------------------------------------------------------------
-- The ledger
-- ---------------------------------------------------------------------------

/-- What is on record for a character after the calls, of which the last one made comes
first: what was stored last since the last clear. A change goes from what is on record, or
from nothing. -/
def onRecord (range : AffectionRange) : List TableCall → String → Option Int
  | [], _ => none
  | .set character value :: earlier, who =>
    if who = character then some (range.hold value.toInt) else onRecord range earlier who
  | .change character delta :: earlier, who =>
    if who = character then
      some (range.hold ((onRecord range earlier who).getD 0 + delta.toInt))
    else onRecord range earlier who
  | .clear :: _, _ => none
  | .observe :: earlier, who => onRecord range earlier who

theorem held_of_onRecord (h : onRecord range calls who = some stored) :
    ∃ amount, stored = range.hold amount := by
  induction calls with
  | nil => cases h
  | cons call earlier ih =>
    cases call with
    | set character value | change character delta =>
      simp only [onRecord] at h
      split at h
      · exact ⟨_, (Option.some.inj h).symm⟩
      · exact ih h
    | clear => cases h
    | observe => exact ih h

/-- The table keeps to the ledger of the calls, of which the last one made comes first. -/
structure Ledgered (range : AffectionRange) (calls : List TableCall) (watched : WatchedTable) :
    Prop where
  range_eq : watched.table.range = range
  observers_eq : watched.observers = calls.count .observe
  recorded_eq : ∀ who, (watched.table.recorded who).map Int32.toInt = onRecord range calls who

namespace Ledgered

theorem opening (range : AffectionRange) : Ledgered range [] (.ofRange range) :=
  ⟨rfl, rfl, fun _ => rfl⟩

variable {range : AffectionRange} {calls : List TableCall} {watched : WatchedTable}

theorem toInt_changed (h : Ledgered range calls watched) (character : String) (delta : Int32) :
    (range.clamp (watched.table.changed character delta)).toInt =
      range.hold ((onRecord range calls character).getD 0 + delta.toInt) := by
  have hbase : ((watched.table.recorded character).getD 0).toInt =
      (onRecord range calls character).getD 0 := by
    rw [← h.recorded_eq character]
    cases watched.table.recorded character <;> rfl
  rw [range.toInt_clamp, AffectionTable.changed, toInt_addSaturated, range.hold_heldWithin, hbase]

/-- A write, whatever the call that asks for it. -/
theorem set (h : Ledgered range calls watched) (hcall : call ≠ .observe)
    (hledger : ∀ who, onRecord range (call :: calls) who =
      if who = character then some (range.clamp value).toInt else onRecord range calls who) :
    Ledgered range (call :: calls) (watched.set character value).1 := by
  refine ⟨h.range_eq, ?_, fun who => ?_⟩
  · rw [List.count_cons_of_ne hcall, ← h.observers_eq]
    rfl
  · simp only [WatchedTable.set, AffectionTable.recorded_set, h.range_eq, hledger,
      ← h.recorded_eq]
    split <;> rfl

theorem call (h : Ledgered range calls watched) (call : TableCall) :
    Ledgered range (call :: calls) (watched.call call).1 := by
  cases call with
  | set character value =>
    refine h.set (by simp) fun who => ?_
    rw [onRecord, range.toInt_clamp]
  | change character delta =>
    refine h.set (by simp) fun who => ?_
    rw [onRecord, h.toInt_changed]
    split
    next hwho => rw [hwho]
    next => rfl
  | clear => exact ⟨h.range_eq, by rw [List.count_cons_of_ne (by decide), ← h.observers_eq]; rfl,
      fun _ => rfl⟩
  | observe => exact ⟨h.range_eq, by rw [List.count_cons_self, ← h.observers_eq]; rfl,
      h.recorded_eq⟩

theorem after (h : Ledgered range earlier watched) (calls : List TableCall) :
    Ledgered range (calls.reverse ++ earlier) (watched.after calls) := by
  induction calls generalizing earlier watched with
  | nil => exact h
  | cons call calls ih =>
    rw [List.reverse_cons, List.append_assoc]
    exact ih (h.call call)

theorem toInt_get (h : Ledgered range calls watched) (who : String) :
    (watched.table.get who).toInt = (onRecord range calls who).getD range.initial.toInt := by
  rw [← h.recorded_eq, ← h.range_eq, AffectionTable.get]
  cases watched.table.recorded who <;> rfl

theorem exists_hold (h : Ledgered range calls watched)
    (hvalue : watched.table.recorded who = some value) :
    ∃ amount, value.toInt = range.hold amount := by
  have hrecord : onRecord range calls who = some value.toInt := by
    rw [← h.recorded_eq, hvalue, Option.map_some]
  exact held_of_onRecord hrecord

/-- Who is told of a call, and what. -/
theorem told (h : Ledgered range calls watched) (call : TableCall) :
    match call.writes? with
    | none => (watched.call call).2 = []
    | some who => ∃ value : Int32, some value.toInt = onRecord range (call :: calls) who ∧
        (watched.call call).2 =
          (List.range' 1 (calls.count .observe)).map (⟨·, who, value⟩) := by
  cases call with
  | set character value =>
    refine ⟨range.clamp value, by rw [onRecord, if_pos rfl, range.toInt_clamp], ?_⟩
    rw [← h.observers_eq, ← h.range_eq]
    exact watched.told_set character value
  | change character delta =>
    refine ⟨range.clamp (watched.table.changed character delta),
      by rw [onRecord, if_pos rfl, h.toInt_changed], ?_⟩
    rw [← h.observers_eq, ← h.range_eq]
    exact watched.told_set character _
  | clear | observe => rfl

end Ledgered

/-- After any calls a table has on record what the ledger says, and reads so; it lies
within the range, or at the upper end of one whose ends are swapped. Of a write that comes
next all observers there are by then are told what is stored, each once and in the order
in which they registered; of other calls nobody is told. -/
theorem WatchedTable.writes_exact (range : AffectionRange) (calls : List TableCall) :
    let watched := (ofRange range).after calls
    let ledger := onRecord range calls.reverse
    (∀ who, (watched.table.recorded who).map Int32.toInt = ledger who) ∧
      (∀ who, (watched.table.get who).toInt = (ledger who).getD range.initial.toInt) ∧
      (range.min ≤ range.max → ∀ who value, watched.table.recorded who = some value →
        range.min ≤ value ∧ value ≤ range.max) ∧
      (range.max < range.min → ∀ who value, watched.table.recorded who = some value →
        value = range.max) ∧
      ∀ call : TableCall, match call.writes? with
        | none => (watched.call call).2 = []
        | some who => ∃ value : Int32,
            some value.toInt = onRecord range (call :: calls.reverse) who ∧
              (watched.call call).2 =
                (List.range' 1 (calls.count TableCall.observe)).map (⟨·, who, value⟩) := by
  intro watched ledger
  have hledger : Ledgered range calls.reverse watched := by
    simpa using (Ledgered.opening range).after calls
  refine ⟨hledger.recorded_eq, hledger.toInt_get, fun hends who value hvalue => ?_,
    fun hswapped who value hvalue => ?_, fun call => ?_⟩
  · obtain ⟨amount, hamount⟩ := hledger.exists_hold hvalue
    have hmem := range.hold_mem hends amount
    rw [← hamount] at hmem
    exact ⟨Int32.le_iff_toInt_le.mpr hmem.1, Int32.le_iff_toInt_le.mpr hmem.2⟩
  · obtain ⟨amount, hamount⟩ := hledger.exists_hold hvalue
    exact Int32.toInt_inj.mp (hamount.trans (range.hold_of_swapped hswapped amount))
  · rw [← List.count_reverse]
    exact hledger.told call

end VisualNovel
