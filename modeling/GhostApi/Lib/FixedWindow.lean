import Mathlib.Data.List.Basic
import Mathlib.Tactic.Common

/-!
# Counting calls in fixed windows

A window opens with a call and lives for a fixed length. The calls in it are
counted, and the first ones up to a limit are admitted. Whether a window
admits at all may depend on when it opened.
-/

namespace FixedWindow

structure Window where
  startedAt : Int
  count : Nat
  deriving DecidableEq

structure Grouped (limit : Nat) (length : Int) (groups : List (List Int)) : Prop where
  bounded : ∀ group ∈ groups, group ≠ [] ∧ group.length ≤ limit
  apart : groups.Pairwise fun earlier later => ∀ a ∈ earlier.head?, ∀ b ∈ later.head?, length ≤ b - a

section Groups

variable {limit : Nat} {length : Int} {groups : List (List Int)} {a b : Int} {i : Nat}

theorem grouped_nil : Grouped limit length [] := ⟨fun _ h => absurd h List.not_mem_nil, List.Pairwise.nil⟩

theorem Grouped.tail {group : List Int} (h : Grouped limit length (group :: groups)) : Grouped limit length groups where
  bounded other hOther := h.bounded other (List.mem_cons_of_mem group hOther)
  apart := (List.pairwise_cons.mp h.apart).2

theorem le_of_place {times : List Int} (hSorted : times.Pairwise (· ≤ ·)) {j : Nat} (hij : i ≤ j)
    (ha : times[i]? = some a) (hb : times[j]? = some b) : a ≤ b := by
  obtain ⟨hi, rfl⟩ := List.getElem?_eq_some_iff.mp ha
  obtain ⟨hj, rfl⟩ := List.getElem?_eq_some_iff.mp hb
  cases Nat.lt_or_eq_of_le hij with
  | inl hLt => exact List.pairwise_iff_getElem.mp hSorted i j hi hj hLt
  | inr hEq =>
    subst hEq
    exact Int.le_refl _

theorem Grouped.span (h : Grouped limit length groups) (hSorted : groups.flatten.Pairwise (· ≤ ·))
    (ha : groups.flatten[i]? = some a) (hb : groups.flatten[i + 2 * limit]? = some b) : length ≤ b - a := by
  induction groups generalizing i with
  | nil => simp at ha
  | cons first rest ih =>
    have hFirst := (h.bounded first List.mem_cons_self).2
    rw [List.flatten_cons] at ha hb hSorted
    by_cases hIn : first.length ≤ i
    · have hNext : first.length ≤ i + 2 * limit := Nat.le_add_right_of_le hIn
      rw [List.getElem?_append_right hIn] at ha
      rw [List.getElem?_append_right hNext, Nat.sub_add_comm hIn] at hb
      exact ih h.tail (List.pairwise_append.mp hSorted).2.1 ha hb
    · -- the first calls of the two groups behind the first one lie between the two places
      have hPast : first.length ≤ i + 2 * limit := by omega
      have hRest : rest.flatten[i + 2 * limit - first.length]? = some b := by
        rw [← List.getElem?_append_right hPast]
        exact hb
      cases rest with
      | nil => simp at hRest
      | cons second rest =>
        have hSecond := h.tail.bounded second List.mem_cons_self
        obtain ⟨c, others, hC⟩ := List.exists_cons_of_ne_nil hSecond.1
        have hStart : (first ++ (second :: rest).flatten)[first.length]? = some c := by
          rw [List.getElem?_append_right (Nat.le_refl _), Nat.sub_self, hC]
          rfl
        have hac : a ≤ c := le_of_place hSorted (by omega) ha hStart
        cases rest with
        | nil =>
          obtain ⟨hPlace, _⟩ := List.getElem?_eq_some_iff.mp hRest
          simp only [List.flatten_cons, List.flatten_nil, List.append_nil] at hPlace
          omega
        | cons third rest =>
          obtain ⟨d, others', hD⟩ := List.exists_cons_of_ne_nil (h.tail.tail.bounded third List.mem_cons_self).1
          have hThird : (first ++ (second :: third :: rest).flatten)[first.length + second.length]? = some d := by
            rw [List.getElem?_append_right (Nat.le_add_right _ _), Nat.add_sub_cancel_left, List.flatten_cons,
              List.getElem?_append_right (Nat.le_refl _), Nat.sub_self, hD]
            rfl
          have hdb : d ≤ b := le_of_place hSorted (by omega) hThird hb
          have hApart := (List.pairwise_cons.mp h.tail.apart).1 third List.mem_cons_self c (by simp [hC]) d (by simp [hD])
          omega

end Groups

/-! ## The counter -/

section Counter

variable (limit : Nat) (length : Int) (usable : Int → Bool)

/-- The window that a call falls into, with the call counted. -/
def enter (t : Int) : Option Window → Window
  | some window => if length ≤ t - window.startedAt then ⟨t, 1⟩ else ⟨window.startedAt, window.count + 1⟩
  | none => ⟨t, 1⟩

def admits (window : Window) : Bool := usable window.startedAt && decide (window.count ≤ limit)

structure Counter where
  window : Option Window
  admitted : List Int

def Counter.call (t : Int) (counter : Counter) : Counter where
  window := some (enter length t counter.window)
  admitted := if admits limit usable (enter length t counter.window) then counter.admitted ++ [t] else counter.admitted

structure Filled (window : Window) (current : List Int) : Prop where
  counted : 0 < window.count
  length : current.length = if usable window.startedAt then min window.count limit else 0
  first : ∀ t ∈ current.head?, t = window.startedAt
  within : ∀ t ∈ current, window.startedAt ≤ t

/-- The admitted calls fall into groups, the last of which is the one of the open window. -/
structure Divided (counter : Counter) (done : List (List Int)) (current : List Int) : Prop where
  all : counter.admitted = done.flatten ++ current
  grouped : Grouped limit length done
  closed : counter.window = none → done = [] ∧ current = []
  filled : ∀ window, counter.window = some window → Filled limit usable window current
  apart : ∀ window, counter.window = some window → ∀ group ∈ done, ∀ t ∈ group.head?, length ≤ window.startedAt - t

structure Past (counter : Counter) (t : Int) : Prop where
  admitted : ∀ a ∈ counter.admitted, a ≤ t
  window : ∀ window, counter.window = some window → window.startedAt ≤ t

structure Counted (counter : Counter) : Prop where
  sorted : counter.admitted.Pairwise (· ≤ ·)
  divided : ∃ done current, Divided limit length usable counter done current

variable {limit : Nat} {length : Int} {usable : Int → Bool} {counter : Counter} {t : Int}

theorem Past.mono {t' : Int} (h : Past counter t) (hle : t ≤ t') : Past counter t' where
  admitted a ha := Int.le_trans (h.admitted a ha) hle
  window window hWindow := Int.le_trans (h.window window hWindow) hle

theorem enter_startedAt_le (h : Past counter t) : (enter length t counter.window).startedAt ≤ t := by
  cases hWindow : counter.window with
  | none => exact Int.le_refl t
  | some window =>
    rw [enter]
    split
    · exact Int.le_refl t
    · exact h.window window hWindow

theorem Past.call (h : Past counter t) : Past (counter.call limit length usable t) t where
  admitted a ha := by
    rw [Counter.call] at ha
    split at ha
    · cases List.mem_append.mp ha with
      | inl hOld => exact h.admitted a hOld
      | inr hNew => exact Int.le_of_eq (List.mem_singleton.mp hNew)
    · exact h.admitted a ha
  window window hWindow := by
    cases hWindow
    exact enter_startedAt_le h

theorem sorted_call (hSorted : counter.admitted.Pairwise (· ≤ ·)) (h : Past counter t) :
    (counter.call limit length usable t).admitted.Pairwise (· ≤ ·) := by
  rw [Counter.call]
  split
  · refine List.pairwise_append.mpr ⟨hSorted, List.pairwise_singleton _ t, fun a ha b hb => ?_⟩
    rw [List.mem_singleton.mp hb]
    exact h.admitted a ha
  · exact hSorted

/-- The group of a window, left out when nothing was admitted in it. -/
def groupOf (current : List Int) : List (List Int) := if current = [] then [] else [current]

theorem groupOf_flatten (current : List Int) : (groupOf current).flatten = current := by
  rw [groupOf]
  split <;> simp [*]

theorem mem_groupOf {current group : List Int} (h : group ∈ groupOf current) : group = current ∧ current ≠ [] := by
  rw [groupOf] at h
  split at h
  · cases h
  · rename_i hNe
    exact ⟨List.mem_singleton.mp h, hNe⟩

theorem Filled.length_le {window : Window} {current : List Int} (h : Filled limit usable window current) :
    current.length ≤ limit := by
  rw [h.length]
  split <;> omega

theorem Divided.close {done : List (List Int)} {current : List Int} (h : Divided limit length usable counter done current)
    {window : Window} (hWindow : counter.window = some window) : Grouped limit length (done ++ groupOf current) where
  bounded group hGroup := by
    cases List.mem_append.mp hGroup with
    | inl hDone => exact h.grouped.bounded group hDone
    | inr hOpen =>
      obtain ⟨rfl, hNe⟩ := mem_groupOf hOpen
      exact ⟨hNe, (h.filled window hWindow).length_le⟩
  apart := by
    refine List.pairwise_append.mpr ⟨h.grouped.apart, ?_, fun earlier hDone later hOpen a ha b hb => ?_⟩
    · rw [groupOf]
      split
      · exact List.Pairwise.nil
      · exact List.pairwise_singleton _ current
    · obtain ⟨rfl, _⟩ := mem_groupOf hOpen
      rw [(h.filled window hWindow).first b hb]
      exact h.apart window hWindow earlier hDone a ha

theorem Counted.grouped (h : Counted limit length usable counter) :
    ∃ groups, groups.flatten = counter.admitted ∧ Grouped limit length groups := by
  obtain ⟨done, current, hDivided⟩ := h.divided
  refine ⟨done ++ groupOf current, ?_, ?_⟩
  · rw [List.flatten_append, groupOf_flatten, hDivided.all]
  · cases hWindow : counter.window with
    | none =>
      obtain ⟨rfl, rfl⟩ := hDivided.closed hWindow
      exact grouped_nil
    | some window => exact hDivided.close hWindow

/-! ### One more call -/

theorem filled_opened (hLimit : 0 < limit) (t : Int) :
    Filled limit usable ⟨t, 1⟩ (if admits limit usable ⟨t, 1⟩ then [t] else []) where
  counted := Nat.one_pos
  length := by
    have hOne : min 1 limit = 1 := Nat.min_eq_left hLimit
    cases hUsable : usable t with
    | true => simp [admits, hUsable, hOne, Nat.succ_le_of_lt hLimit]
    | false => simp [admits, hUsable]
  first a ha := by
    split at ha
    · simpa using ha.symm
    · simp at ha
  within a ha := by
    split at ha
    · exact Int.le_of_eq (List.mem_singleton.mp ha).symm
    · cases ha

theorem Filled.more {window : Window} {current : List Int} (h : Filled limit usable window current)
    (hLater : window.startedAt ≤ t) :
    Filled limit usable ⟨window.startedAt, window.count + 1⟩
      (if admits limit usable ⟨window.startedAt, window.count + 1⟩ then current ++ [t] else current) where
  counted := Nat.succ_pos _
  length := by
    have hLength := h.length
    cases hUsable : usable window.startedAt with
    | true =>
      rw [hUsable, if_pos rfl] at hLength
      by_cases hMore : window.count + 1 ≤ limit
      · simp only [admits, hUsable, hMore, decide_true, Bool.and_self, if_true, List.length_append, List.length_singleton]
        omega
      · simp only [admits, hUsable, hMore, decide_false, Bool.and_false, Bool.false_eq_true, if_false, if_true]
        omega
    | false => simpa [admits, hUsable] using hLength
  first a ha := by
    split at ha
    · rename_i hAdmits
      cases hCurrent : current with
      | nil =>
        -- an open window that admits now has admitted before
        have hLength := h.length
        have hCounted := h.counted
        simp only [admits, Bool.and_eq_true, decide_eq_true_eq] at hAdmits
        rw [hCurrent, hAdmits.1, if_pos rfl, List.length_nil] at hLength
        omega
      | cons first rest =>
        rw [hCurrent] at ha
        exact h.first a (by simpa [hCurrent] using ha)
    · exact h.first a ha
  within a ha := by
    split at ha
    · cases List.mem_append.mp ha with
      | inl hOld => exact h.within a hOld
      | inr hNew =>
        rw [List.mem_singleton.mp hNew]
        exact hLater
    · exact h.within a ha

theorem divided_opened {groups : List (List Int)} (hLimit : 0 < limit) (hAll : counter.admitted = groups.flatten)
    (hGrouped : Grouped limit length groups) (hOpens : enter length t counter.window = ⟨t, 1⟩)
    (hApart : ∀ group ∈ groups, ∀ a ∈ group.head?, length ≤ t - a) :
    Divided limit length usable (counter.call limit length usable t) groups
      (if admits limit usable ⟨t, 1⟩ then [t] else []) where
  all := by
    rw [Counter.call, hOpens, hAll]
    split <;> simp
  grouped := hGrouped
  closed h := by cases h
  filled window hWindow := by
    rw [Counter.call, hOpens] at hWindow
    cases hWindow
    exact filled_opened hLimit t
  apart window hWindow := by
    rw [Counter.call, hOpens] at hWindow
    cases hWindow
    exact hApart

theorem Divided.opened {done : List (List Int)} {current : List Int} (h : Divided limit length usable counter done current)
    {window : Window} (hWindow : counter.window = some window) (hLimit : 0 < limit) (hLength : 0 ≤ length)
    (hExpired : length ≤ t - window.startedAt) :
    Divided limit length usable (counter.call limit length usable t) (done ++ groupOf current)
      (if admits limit usable ⟨t, 1⟩ then [t] else []) := by
  refine divided_opened hLimit ?_ (h.close hWindow) ?_ fun group hGroup a ha => ?_
  · rw [List.flatten_append, groupOf_flatten, h.all]
  · rw [hWindow, enter, if_pos hExpired]
  · cases List.mem_append.mp hGroup with
    | inl hDone =>
      have hBefore := h.apart window hWindow group hDone a ha
      omega
    | inr hOpen =>
      obtain ⟨rfl, _⟩ := mem_groupOf hOpen
      rw [(h.filled window hWindow).first a ha]
      exact hExpired

theorem Divided.more {done : List (List Int)} {current : List Int} (h : Divided limit length usable counter done current)
    {window : Window} (hWindow : counter.window = some window) (hLive : ¬ length ≤ t - window.startedAt)
    (hPast : Past counter t) :
    Divided limit length usable (counter.call limit length usable t) done
      (if admits limit usable ⟨window.startedAt, window.count + 1⟩ then current ++ [t] else current) where
  all := by
    rw [Counter.call, hWindow, enter, if_neg hLive, h.all]
    split <;> simp
  grouped := h.grouped
  closed hNone := by cases hNone
  filled next hNext := by
    rw [Counter.call, hWindow, enter, if_neg hLive] at hNext
    cases hNext
    exact (h.filled window hWindow).more (hPast.window window hWindow)
  apart next hNext := by
    rw [Counter.call, hWindow, enter, if_neg hLive] at hNext
    cases hNext
    exact h.apart window hWindow

theorem Counted.call (h : Counted limit length usable counter) (hLimit : 0 < limit) (hLength : 0 ≤ length)
    (hPast : Past counter t) : Counted limit length usable (counter.call limit length usable t) where
  sorted := sorted_call h.sorted hPast
  divided := by
    obtain ⟨done, current, hDivided⟩ := h.divided
    cases hWindow : counter.window with
    | none =>
      obtain ⟨rfl, rfl⟩ := hDivided.closed hWindow
      refine ⟨[], _, divided_opened hLimit hDivided.all grouped_nil ?_ fun group hGroup => absurd hGroup List.not_mem_nil⟩
      rw [hWindow, enter]
    | some window =>
      by_cases hExpired : length ≤ t - window.startedAt
      · exact ⟨_, _, hDivided.opened hWindow hLimit hLength hExpired⟩
      · exact ⟨_, _, hDivided.more hWindow hExpired hPast⟩

theorem counted_initial : Counted limit length usable ⟨none, []⟩ where
  sorted := List.Pairwise.nil
  divided := by
    refine ⟨[], [], rfl, grouped_nil, fun _ => ⟨rfl, rfl⟩, fun _ h => ?_, fun _ h => ?_⟩
    · cases h
    · cases h

theorem Counted.full (h : Counted limit length usable counter) (hLimit : 0 < limit)
    (hUsable : usable (enter length t counter.window).startedAt = true)
    (hOver : limit < (enter length t counter.window).count) :
    limit ≤ (counter.admitted.filter fun a => decide (t - a < length)).length := by
  obtain ⟨done, current, hDivided⟩ := h.divided
  cases hWindow : counter.window with
  | none =>
    rw [hWindow, enter] at hOver
    exact absurd hOver (Nat.not_lt_of_le hLimit)
  | some window =>
    rw [hWindow, enter] at hOver hUsable
    split at hOver
    · exact absurd hOver (Nat.not_lt_of_le hLimit)
    · rename_i hLive
      rw [if_neg hLive] at hUsable
      have hFilled := hDivided.filled window hWindow
      have hLength : current.length = limit := by
        rw [hFilled.length, hUsable, if_pos rfl]
        exact Nat.min_eq_right (Nat.le_of_lt_succ hOver)
      have hCurrent : current.filter (fun a => decide (t - a < length)) = current := by
        refine List.filter_eq_self.mpr fun a ha => decide_eq_true ?_
        have hWithin := hFilled.within a ha
        omega
      rw [hDivided.all, List.filter_append, hCurrent, List.length_append, hLength]
      exact Nat.le_add_left _ _

end Counter

end FixedWindow
