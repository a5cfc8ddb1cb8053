import WiredGraph.Proofs.Document.WellFormed
import WiredGraph.Proofs.Success
import WiredGraph.Schema.Literal

/-!
# Which literals may be defaults

A default value may be any literal without objects and variables in it, as long as its integers fit
into a signed word of 64 bits. Nothing else can go wrong: what the scan takes for a floating point
number always has a value, which may be infinite.
-/

namespace WiredGraph

namespace NumberLiteral

open Scan (IsDigits IsNumber IsNumberOf)
open Text (takeWhile_run dropWhile_run)

theorem nat?_of_isDigits {text : List Char} (isDigits : IsDigits text) :
    nat? text = some (ofDigits text) := by
  rw [nat?, if_pos]
  exact ⟨isDigits.nonempty, List.all_eq_true.mpr isDigits.digits⟩

theorem ne_minus_of_isDigits {first : Char} {rest : List Char}
    (isDigits : IsDigits (first :: rest)) : first ≠ '-' ∧ first ≠ '+' := by
  have digit := isDigits.digits first (by simp)
  constructor <;>
  · rintro rfl
    simp at digit

theorem exists_integer?_of_isDigits {minus digits : List Char}
    (isMinus : minus = [] ∨ minus = ['-']) (isDigits : IsDigits digits) :
    ∃ value, integer? (minus ++ digits) = some value := by
  rcases isMinus with rfl | rfl
  · rcases digits with - | ⟨first, rest⟩
    · exact absurd rfl isDigits.nonempty
    · have differs := (ne_minus_of_isDigits isDigits).1
      simp [integer?, differs, nat?_of_isDigits isDigits]
  · simp [integer?, nat?_of_isDigits isDigits]

/-- An exponent of a number can be read. -/
theorem exists_scale? {minus whole decimals exponent : List Char}
    (isNumber : IsNumber minus whole decimals exponent) :
    ∃ value, scale? exponent = some value := by
  rcases isNumber.exponent with rfl | ⟨mark, plusMinus, digits, isMark, isSign, isDigits, rfl⟩
  · exact ⟨0, rfl⟩
  · rw [scale?, if_pos isMark]
    rcases isSign with rfl | rfl | rfl
    · rcases digits with - | ⟨first, rest⟩
      · exact absurd rfl isDigits.nonempty
      · have differs := (ne_minus_of_isDigits isDigits).2
        rw [List.nil_append, exponent?]
        · exact exists_integer?_of_isDigits (.inl rfl : [] = [] ∨ [] = ['-']) isDigits
        · intro others same
          exact differs (List.cons.inj same).1
    · exact ⟨_, by rw [List.singleton_append, exponent?, nat?_of_isDigits isDigits]; rfl⟩
    · rw [exponent?]
      · exact exists_integer?_of_isDigits (.inr rfl) isDigits
      · simp

/-- An exponent does not go on with digits. -/
theorem stops_exponent {minus whole decimals exponent : List Char}
    (isNumber : IsNumber minus whole decimals exponent) : Text.Stops Char.isDigit exponent := by
  rcases isNumber.exponent with rfl | ⟨mark, plusMinus, digits, rfl | rfl, -, -, rfl⟩ <;> simp

theorem stops_decimals {minus whole places exponent : List Char}
    (isNumber : IsNumber minus whole places exponent) :
    Text.Stops Char.isDigit (places ++ exponent) := by
  rcases isNumber.decimals with rfl | ⟨digits, -, rfl⟩
  · exact stops_exponent isNumber
  · simp

theorem exists_magnitude? {minus whole places exponent : List Char}
    (isNumber : IsNumber minus whole places exponent) (negative : Bool) :
    ∃ value, magnitude? negative (whole ++ places ++ exponent) = some value := by
  have cut : ∃ digits, decimals (places ++ exponent) = (digits, exponent) ∧
      IsDigits (whole ++ digits) := by
    rcases isNumber.decimals with rfl | ⟨digits, isDigits, rfl⟩
    · refine ⟨[], ?_, by simpa using isNumber.whole⟩
      rcases isNumber.exponent with rfl | ⟨mark, plusMinus, digits, rfl | rfl, -, -, rfl⟩ <;> rfl
    · refine ⟨digits, ?_, ?_, ?_⟩
      · simp only [List.cons_append, decimals,
          takeWhile_run isDigits.digits (stops_exponent isNumber),
          dropWhile_run isDigits.digits (stops_exponent isNumber)]
      · simp [isDigits.nonempty]
      · intro char char_mem
        rcases List.mem_append.mp char_mem with before | after
        · exact isNumber.whole.digits char before
        · exact isDigits.digits char after
  rcases cut with ⟨digits, cut, isDigits⟩
  rcases exists_scale? isNumber with ⟨scale, scaled⟩
  have stops := stops_decimals isNumber
  rw [List.append_assoc]
  simp only [magnitude?, takeWhile_run isNumber.whole.digits stops,
    dropWhile_run isNumber.whole.digits stops, cut, Option.bind_eq_bind, Option.bind_some,
    nat?_of_isDigits isDigits, scaled]
  exact ⟨_, rfl⟩

/-- Whatever is taken for a number can be read as a floating point number. -/
theorem exists_float? {kind : TokenKind} {chars : List Char} (isNumber : IsNumberOf kind chars) :
    ∃ value, float? chars = some value := by
  rcases isNumber with ⟨minus, whole, places, exponent, isNumber, rfl, -⟩
  rcases isNumber.minus with rfl | rfl
  · rcases whole with - | ⟨first, rest⟩
    · exact absurd rfl isNumber.whole.nonempty
    · have differs := (ne_minus_of_isDigits isNumber.whole).1
      rw [float?]
      · exact exists_magnitude? isNumber false
      · intro others same
        exact differs (List.cons.inj same).1
  · exact exists_magnitude? isNumber true

theorem exists_int64?_iff {digits : String} :
    (∃ value, int64? digits = some value) ↔
      ∃ number, integer? digits.toList = some number ∧
        -0x8000000000000000 ≤ number ∧ number ≤ 0x7fffffffffffffff := by
  rw [int64?]
  cases integer? digits.toList with
  | none => simp
  | some number => simp

end NumberLiteral

/-- A literal that a default value can be made of. -/
inductive Value.IsDefault : Value → Prop
  | int {digits : String} {span : Span} {number : Int} :
      NumberLiteral.integer? digits.toList = some number → -0x8000000000000000 ≤ number →
        number ≤ 0x7fffffffffffffff → IsDefault (.int digits span)
  | float (digits : String) (span : Span) : IsDefault (.float digits span)
  | string (text : String) (block : Bool) (span : Span) : IsDefault (.string text block span)
  | boolean (value : Bool) (span : Span) : IsDefault (.boolean value span)
  | null (span : Span) : IsDefault (.null span)
  | enum (name : Name) : IsDefault (.enum name)
  | list {items : List Value} {span : Span} :
      (∀ item ∈ items, IsDefault item) → IsDefault (.list items span)

namespace DefaultValue

theorem ofValues_eq_mapM (values : List Value) : ofValues values = values.mapM ofValue := by
  induction values with
  | nil => rfl
  | cons value rest ih => rw [ofValues, ih, List.mapM_cons]

/-- A literal can be kept as a default value exactly if it is one of those that may. -/
theorem exists_ofValue_iff {blocks : Prop} {value : Value} (wellFormed : value.WellFormed blocks) :
    (∃ default, ofValue value = .ok default) ↔ value.IsDefault := by
  induction wellFormed with
  | var => exact iff_of_false (by simp [ofValue]) (by rintro ⟨⟩)
  | @int digits span isNumber =>
      have kept : (∃ default, ofValue (.int digits span) = .ok default) ↔
          ∃ value, NumberLiteral.int64? digits = some value := by
        rw [ofValue]
        cases NumberLiteral.int64? digits <;> simp
      rw [kept, NumberLiteral.exists_int64?_iff]
      constructor
      · rintro ⟨number, reads, lower, upper⟩
        exact .int reads lower upper
      · rintro ⟨reads, lower, upper⟩
        exact ⟨_, reads, lower, upper⟩
  | @float digits span isNumber =>
      rcases NumberLiteral.exists_float? isNumber with ⟨number, reads⟩
      exact iff_of_true ⟨.float number, by simp [ofValue, reads]⟩ (.float digits span)
  | string => exact iff_of_true ⟨_, rfl⟩ (.string _ _ _)
  | boolean => exact iff_of_true ⟨_, rfl⟩ (.boolean _ _)
  | null => exact iff_of_true ⟨_, rfl⟩ (.null _)
  | enum => exact iff_of_true ⟨_, rfl⟩ (.enum _)
  | @list items span _ ih =>
      simp only [ofValue, ofValues_eq_mapM, Success.bind_eq_ok, Success.pure_eq_ok,
        Success.mapM_eq_ok_iff]
      constructor
      · rintro ⟨_, defaults, kept, rfl⟩
        have each := Success.exists_forall₂_iff.mp ⟨defaults, kept⟩
        exact .list fun item item_mem => (ih item item_mem).mp (each item item_mem)
      · rintro (_ | _ | _ | _ | _ | _ | each)
        rcases Success.exists_forall₂_iff.mpr fun item item_mem =>
          (ih item item_mem).mpr (each item item_mem) with ⟨defaults, kept⟩
        exact ⟨.list defaults, defaults, kept, rfl⟩
  | object => exact iff_of_false (by simp [ofValue]) (by rintro ⟨⟩)

end DefaultValue

end WiredGraph
