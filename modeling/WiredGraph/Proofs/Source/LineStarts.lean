import Mathlib.Data.List.DropRight
import Mathlib.Data.List.Pairwise
import WiredGraph.Proofs.Source.Bytes

/-!
# Where lines start

The line of an offset is looked for among the sorted starts of all lines by halving. The offset may
be one of them or not: both ways lead to the last line that starts at or before the offset, which
there always is. Line feeds before the offset count the lines before it, and the line itself starts
behind the last of these line feeds.
-/

namespace WiredGraph

open Utf8 (bytes lineFeed)

namespace Placement

variable {numbers : Array Nat} {number : Nat}

/-- A number belongs where it stands, or else behind all smaller and before all greater ones. -/
def Fits (numbers : Array Nat) (number : Nat) : Placement → Prop
  | .found place => numbers[place]? = some number
  | .missing place => place ≤ numbers.size ∧
      (∀ earlier, ∀ inside : earlier < numbers.size, earlier < place → numbers[earlier] < number) ∧
        ∀ later, ∀ inside : later < numbers.size, place ≤ later → number < numbers[later]

theorem increasing_of_sorted (sorted : numbers.toList.Pairwise (· < ·)) {first second : Nat}
    (within : second < numbers.size) (before : first < second) :
    numbers[first] < numbers[second] :=
  List.pairwise_iff_getElem.mp sorted first second (before.trans within) within before

/-- The numbers before the searched part are smaller all along, and those behind it greater. -/
theorem fits_between (sorted : numbers.toList.Pairwise (· < ·)) {low high : Nat}
    (ordered : low ≤ high) (inside : high ≤ numbers.size)
    (below : ∀ earlier, ∀ inside : earlier < numbers.size, earlier < low →
      numbers[earlier] < number)
    (above : ∀ later, ∀ inside : later < numbers.size, high ≤ later → number < numbers[later]) :
    (between numbers number low high inside).Fits numbers number := by
  fun_induction between numbers number low high inside with
  | case1 low high inside nonempty middle valid here =>
      exact Array.getElem?_eq_some_iff.mpr ⟨valid, here⟩
  | case2 low high inside nonempty middle valid elsewhere smaller ih =>
      refine ih (by omega) (fun earlier within before => ?_) above
      rcases Nat.lt_or_eq_of_le (Nat.lt_succ_iff.mp before) with before | rfl
      · exact (increasing_of_sorted sorted valid before).trans smaller
      · exact smaller
  | case3 low high inside nonempty middle valid elsewhere notSmaller ih =>
      have greater : number < numbers[middle] := by omega
      refine ih (by omega) below (fun later within after => ?_)
      rcases Nat.lt_or_eq_of_le after with after | rfl
      · exact greater.trans (increasing_of_sorted sorted within after)
      · exact greater
  | case4 low high inside empty =>
      exact ⟨by omega, below, fun later within after => above later within (by omega)⟩

theorem fits_among (sorted : numbers.toList.Pairwise (· < ·)) (number : Nat) :
    (among numbers number).Fits numbers number :=
  fits_between sorted (Nat.zero_le _) _ (by omega) (by omega)

end Placement

namespace LineIndex

/-- Offsets just past each line feed, for bytes that stand at an offset. -/
def startsIn : Nat → List UInt8 → List Nat
  | _, [] => []
  | offset, byte :: rest =>
      if byte = lineFeed then (offset + 1) :: startsIn (offset + 1) rest
      else startsIn (offset + 1) rest

section Starts

variable {offset : Nat}

theorem startsIn_append (offset : Nat) (front back : List UInt8) :
    startsIn offset (front ++ back) =
      startsIn offset front ++ startsIn (offset + front.length) back := by
  induction front generalizing offset with
  | nil => rfl
  | cons byte rest ih =>
      have further : offset + 1 + rest.length = offset + (rest.length + 1) := by omega
      simp only [List.cons_append, startsIn, ih, List.length_cons, further]
      split <;> rfl

theorem length_startsIn (offset : Nat) (content : List UInt8) :
    (startsIn offset content).length = content.count lineFeed := by
  induction content generalizing offset with
  | nil => rfl
  | cons byte rest ih =>
      rw [startsIn, List.count_cons, ← ih (offset + 1)]
      by_cases feed : byte = lineFeed <;> simp [feed]

theorem bounds_of_mem_startsIn {content : List UInt8} {start : Nat}
    (start_mem : start ∈ startsIn offset content) :
    offset < start ∧ start ≤ offset + content.length := by
  induction content generalizing offset with
  | nil => nomatch start_mem
  | cons byte rest ih =>
      have later : start ∈ startsIn (offset + 1) rest → offset + 1 < start ∧
          start ≤ offset + 1 + rest.length := ih
      rw [startsIn] at start_mem
      rw [List.length_cons]
      split at start_mem
      · rcases List.mem_cons.mp start_mem with rfl | further
        · omega
        · have := later further
          omega
      · have := later start_mem
        omega

theorem pairwise_startsIn (offset : Nat) (content : List UInt8) :
    (startsIn offset content).Pairwise (· < ·) := by
  induction content generalizing offset with
  | nil => exact List.Pairwise.nil
  | cons byte rest ih =>
      rw [startsIn]
      split
      · exact List.pairwise_cons.mpr ⟨fun _ later => (bounds_of_mem_startsIn later).1, ih _⟩
      · exact ih _

/-- Characters that take several bytes start no line. -/
theorem startsFrom_eq (offset : Nat) (text : List Char) :
    startsFrom offset text = startsIn offset (bytes text) := by
  induction text generalizing offset with
  | nil => rfl
  | cons char rest ih =>
      rw [Utf8.bytes_cons, startsIn_append, String.length_utf8EncodeChar, startsFrom, ih]
      split
      · next feed =>
          subst feed
          rfl
      · next other =>
          have none : startsIn offset (String.utf8EncodeChar char) = [] := by
            rw [← List.length_eq_zero_iff, length_startsIn, Utf8.count_utf8EncodeChar,
              if_neg other]
          rw [none, List.nil_append]

end Starts

section Splitting

variable {index : LineIndex} {offset : Nat} {front back : List Nat}

/-- Where starts are split at an offset, those that are reached are told by their places. -/
theorem start_le_iff (split : index.starts.toList = front ++ back)
    (reached : ∀ start ∈ front, start ≤ offset) (beyond : ∀ start ∈ back, offset < start)
    {place : Nat} (inside : place < index.starts.size) :
    index.starts[place] ≤ offset ↔ place < front.length := by
  have here : (front ++ back)[place]? = some index.starts[place] := by
    rw [← split, Array.getElem?_toList, Array.getElem?_eq_getElem inside]
  by_cases inFront : place < front.length
  · rw [List.getElem?_append_left inFront] at here
    exact iff_of_true (reached _ (List.mem_of_getElem? here)) inFront
  · rw [List.getElem?_append_right (Nat.not_lt.mp inFront)] at here
    exact iff_of_false (Nat.not_le.mpr (beyond _ (List.mem_of_getElem? here))) inFront

/-- The line of an offset is the last one of those that start at or before it. A start in front of
another one that is reached is smaller than the offset. -/
theorem lineAt_add_one (sorted : index.starts.toList.Pairwise (· < ·))
    (split : index.starts.toList = front ++ back) (nonempty : front ≠ [])
    (reached : ∀ start ∈ front, start ≤ offset) (beyond : ∀ start ∈ back, offset < start) :
    Placement.among index.starts offset ≠ .missing 0 ∧
      index.lineAt offset + 1 = front.length := by
  have size : index.starts.size = front.length + back.length := by
    rw [← Array.length_toList, split, List.length_append]
  have positive := List.length_pos_iff.mpr nonempty
  have reached_iff : ∀ place, ∀ inside : place < index.starts.size,
      index.starts[place] ≤ offset ↔ place < front.length :=
    fun _ => start_le_iff split reached beyond
  have fits := Placement.fits_among sorted offset
  rw [lineAt]
  cases placed : Placement.among index.starts offset with
  | found place =>
      rw [placed] at fits
      rcases Array.getElem?_eq_some_iff.mp fits with ⟨inside, here⟩
      have inFront := (reached_iff place inside).mp (by omega)
      refine ⟨nofun, ?_⟩
      change place + 1 = front.length
      by_contra notLast
      have smaller := Placement.increasing_of_sorted sorted
        (show place + 1 < index.starts.size by omega) (Nat.lt_succ_self place)
      have := (reached_iff (place + 1) (by omega)).mpr (by omega)
      omega
  | missing place =>
      rw [placed] at fits
      rcases fits with ⟨atMost, below, above⟩
      have behindFront : front.length ≤ place := by
        by_contra inFront
        have greater := above place (by omega) (Nat.le_refl _)
        have := (reached_iff place (by omega)).mpr (by omega)
        omega
      have beforeBack : place ≤ front.length := by
        by_contra inBack
        have smaller := below front.length (by omega) (by omega)
        have := (reached_iff front.length (by omega)).mp (by omega)
        omega
      refine ⟨?_, ?_⟩
      · rintro ⟨⟩
        omega
      · change place - 1 + 1 = front.length
        omega

end Splitting

variable {text : List Char} {offset : Nat}

theorem toList_starts (text : List Char) :
    (ofText text).starts.toList = 0 :: startsIn 0 (bytes text) := by
  rw [ofText, startsFrom_eq]

theorem pairwise_starts (text : List Char) : (ofText text).starts.toList.Pairwise (· < ·) := by
  rw [toList_starts]
  exact List.pairwise_cons.mpr
    ⟨fun _ later => (bounds_of_mem_startsIn later).1, pairwise_startsIn 0 _⟩

/-- Lines start among the bytes before an offset and among those from it on. -/
theorem toList_starts_eq_append (text : List Char) (offset : Nat) :
    (ofText text).starts.toList =
      (0 :: startsIn 0 ((bytes text).take offset)) ++
        startsIn ((bytes text).take offset).length ((bytes text).drop offset) := by
  have parts := startsIn_append 0 ((bytes text).take offset) ((bytes text).drop offset)
  rw [List.take_append_drop, Nat.zero_add] at parts
  rw [toList_starts, parts, List.cons_append]

/-- An offset is on the line that is counted by the line feeds before it. -/
theorem lineAt_ofText (text : List Char) (offset : Nat) :
    Placement.among (ofText text).starts offset ≠ .missing 0 ∧
      (ofText text).lineAt offset = ((bytes text).take offset).count lineFeed := by
  have reached : ∀ start ∈ 0 :: startsIn 0 ((bytes text).take offset), start ≤ offset := by
    intro start start_mem
    rcases List.mem_cons.mp start_mem with rfl | later
    · exact Nat.zero_le _
    · have := (bounds_of_mem_startsIn later).2
      rw [List.length_take] at this
      omega
  have beyond : ∀ start ∈ startsIn ((bytes text).take offset).length ((bytes text).drop offset),
      offset < start := by
    intro start start_mem
    have bounds := bounds_of_mem_startsIn start_mem
    rw [List.length_take, List.length_drop] at bounds
    omega
  have found := lineAt_add_one (pairwise_starts text) (toList_starts_eq_append text offset)
    (List.cons_ne_nil _ _) reached beyond
  rw [List.length_cons, length_startsIn] at found
  exact found.imp_right Nat.succ_inj.mp

end LineIndex

end WiredGraph
