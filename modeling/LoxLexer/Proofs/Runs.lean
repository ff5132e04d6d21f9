import Mathlib.Data.List.TakeWhile

/-!
# Runs at the front of a list

Generic lemmas about `List.takeWhile` and `List.dropWhile`: a run that is stopped by what follows
does not depend on what follows, so what stands before the first place of an element is known. A
list is known from what is written for its elements if the first of them always is.
-/

namespace List

variable {α : Type _} {p : α → Bool} {l r : List α}

/-- A run does not reach into a list whose head fails the predicate. -/
theorem takeWhile_append_of_head? (hr : ∀ a ∈ r.head?, p a = false) :
    (l ++ r).takeWhile p = l.takeWhile p := by
  induction l with
  | nil =>
    cases r with
    | nil => rfl
    | cons a r => simp [hr a rfl]
  | cons a l ih => simp only [cons_append, takeWhile_cons, ih]

/-- What is left behind a run goes on with a list whose head fails the predicate. -/
theorem dropWhile_append_of_head? (hr : ∀ a ∈ r.head?, p a = false) :
    (l ++ r).dropWhile p = l.dropWhile p ++ r := by
  induction l with
  | nil =>
    cases r with
    | nil => rfl
    | cons a r => simp [hr a rfl]
  | cons a l ih =>
    simp only [cons_append, dropWhile_cons, ih]
    split <;> rfl

theorem takeWhile_append_eq_left (hl : ∀ a ∈ l, p a) (hr : ∀ a ∈ r.head?, p a = false) :
    (l ++ r).takeWhile p = l := by
  rw [takeWhile_append_of_head? hr, takeWhile_eq_self_iff.2 hl]

theorem dropWhile_append_eq_right (hl : ∀ a ∈ l, p a) (hr : ∀ a ∈ r.head?, p a = false) :
    (l ++ r).dropWhile p = r := by
  rw [dropWhile_append_of_head? hr, dropWhile_eq_nil_iff.2 hl, nil_append]

/-- The head behind a run fails the predicate. -/
theorem eq_false_of_mem_head?_dropWhile {a : α} (h : a ∈ (l.dropWhile p).head?) : p a = false := by
  have hhead := head?_dropWhile_not p l
  rw [Option.mem_def.1 h] at hhead
  exact hhead

/-- The run at the front of a list is no shorter for what is appended. -/
theorem length_le_length_takeWhile_append (hl : ∀ a ∈ l, p a) :
    l.length ≤ ((l ++ r).takeWhile p).length := by
  rw [takeWhile_append_of_pos hl, length_append]
  exact Nat.le_add_right _ _

/-- The head of a list with an element behind it is the head of the list or this element. -/
theorem forall_mem_head?_append_cons {P : α → Prop} {a : α} (ha : P a) (h : ∀ b ∈ l.head?, P b) :
    ∀ b ∈ (l ++ a :: r).head?, P b := by
  cases l with
  | nil => simpa using ha
  | cons b l => exact h

/-- The predicate that only one element fails holds of a list without this element. -/
theorem forall_mem_ne_of_not_mem [DecidableEq α] {a : α} (h : a ∉ l) :
    ∀ b ∈ l, decide (b ≠ a) = true :=
  fun _ hb => decide_eq_true fun hba => h (hba ▸ hb)

/-- The first place of an element splits a list in one way. -/
theorem append_cons_inj_of_not_mem [DecidableEq α] {l' r' : List α} {a : α} (hl : a ∉ l)
    (hl' : a ∉ l') (h : l ++ a :: r = l' ++ a :: r') : l = l' ∧ r = r' := by
  -- The part before the first place is the run of what is not the element.
  have hfront {l r : List α} (hl : a ∉ l) : (l ++ a :: r).takeWhile (· ≠ a) = l :=
    takeWhile_append_eq_left (forall_mem_ne_of_not_mem hl) (by simp)
  have heq : l = l' := by rw [← hfront hl, h, hfront hl']
  subst heq
  exact ⟨rfl, (cons.inj (append_cancel_left h)).2⟩

/-- If the first element is known from what is written for a list, whatever follows, then the list
    is known. -/
theorem flatMap_inj_of_append_inj {β : Type _} {f : α → List β} {l' : List α}
    (hne : ∀ a, f a ≠ [])
    (hfirst : ∀ a ∈ l, ∀ a' ∈ l', ∀ x y, f a ++ x = f a' ++ y → a = a' ∧ x = y)
    (h : l.flatMap f = l'.flatMap f) : l = l' := by
  -- The first elements are the same, and so is what is written behind them.
  induction l generalizing l' with
  | nil =>
    cases l' with
    | nil => rfl
    | cons a' l' => simp [hne] at h
  | cons a l ih =>
    cases l' with
    | nil => simp [hne] at h
    | cons a' l' =>
      obtain ⟨rfl, hrest⟩ := hfirst a mem_cons_self a' mem_cons_self _ _ h
      have hlater : ∀ b ∈ l, ∀ b' ∈ l', ∀ x y, f b ++ x = f b' ++ y → b = b' ∧ x = y :=
        fun b hb b' hb' => hfirst b (mem_cons_of_mem _ hb) b' (mem_cons_of_mem _ hb')
      rw [ih hlater hrest]

end List
