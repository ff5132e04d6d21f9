/-!
# Lines of lists

A line of a list ends at an element of a certain kind, which belongs to it. The last line may have
no such end, but it is not empty.

## Key results

- `List.linesBy_append_cons`: the lines of a list, one at a time
- `List.linesBy_append`: the lines of two lists, one behind the other
- `List.induction_by_lines`: induction along the lines of a list
-/

namespace List

variable {α : Type _} {p : α → Prop} [DecidablePred p]

/-- The lines of a list, each with the element that ends it. -/
def linesBy (p : α → Prop) [DecidablePred p] (l : List α) : List (List α) :=
  l.foldr (fun a lines =>
    if p a then [a] :: lines
    else match lines with
      | [] => [[a]]
      | line :: others => (a :: line) :: others) []

@[simp] theorem linesBy_nil : linesBy p [] = [] := rfl

theorem linesBy_cons_of_pos {a : α} (l : List α) (ha : p a) :
    linesBy p (a :: l) = [a] :: linesBy p l := if_pos ha

theorem linesBy_cons_of_neg {a : α} (l : List α) (ha : ¬ p a) :
    linesBy p (a :: l) = match linesBy p l with
      | [] => [[a]]
      | line :: others => (a :: line) :: others := if_neg ha

/-- Elements that end no line belong to the first line of what follows them. -/
theorem linesBy_append_of_neg {front : List α} (hne : front ≠ []) (h : ∀ a ∈ front, ¬ p a)
    (l : List α) :
    linesBy p (front ++ l) = match linesBy p l with
      | [] => [front]
      | line :: others => (front ++ line) :: others := by
  -- By induction on the elements in front. Each is put before the first line of what follows it.
  induction front with
  | nil => exact absurd rfl hne
  | cons a front ih =>
    obtain ⟨ha, hfront⟩ := forall_mem_cons.1 h
    rw [cons_append, linesBy_cons_of_neg _ ha]
    cases front with
    | nil =>
      rw [nil_append]
      cases linesBy p l <;> rfl
    | cons b front =>
      rw [ih (cons_ne_nil b front) hfront]
      cases linesBy p l <;> rfl

/-- A line that is not ended is the last. -/
theorem linesBy_eq_singleton {l : List α} (hne : l ≠ []) (h : ∀ a ∈ l, ¬ p a) :
    linesBy p l = [l] := by
  have hlines := linesBy_append_of_neg hne h []
  rwa [append_nil] at hlines

/-- A line that is ended comes first. -/
theorem linesBy_append_cons {line : List α} {a : α} (h : ∀ b ∈ line, ¬ p b) (ha : p a)
    (l : List α) : linesBy p (line ++ a :: l) = (line ++ [a]) :: linesBy p l := by
  cases line with
  | nil => exact linesBy_cons_of_pos l ha
  | cons b line => rw [linesBy_append_of_neg (cons_ne_nil b line) h, linesBy_cons_of_pos l ha]

theorem linesBy_ne_nil {l : List α} (h : l ≠ []) : linesBy p l ≠ [] := by
  obtain ⟨a, l, rfl⟩ := exists_cons_of_ne_nil h
  by_cases ha : p a
  · rw [linesBy_cons_of_pos l ha]
    exact cons_ne_nil _ _
  · rw [linesBy_cons_of_neg l ha]
    cases linesBy p l <;> exact cons_ne_nil _ _

/-- Behind the end of a line, what follows has lines of its own. -/
theorem linesBy_append {front : List α} (h : ∀ a ∈ front.getLast?, p a) (l : List α) :
    linesBy p (front ++ l) = linesBy p front ++ linesBy p l := by
  induction front with
  | nil => rfl
  | cons a front ih =>
    cases front with
    | nil =>
      -- The only element is the last, so it ends its line.
      have ha : p a := h a rfl
      rw [cons_append, linesBy_cons_of_pos _ ha, linesBy_cons_of_pos _ ha]
      rfl
    | cons b front =>
      have hlines := ih (by simpa using h)
      rw [cons_append]
      by_cases ha : p a
      · rw [linesBy_cons_of_pos _ ha, linesBy_cons_of_pos _ ha, hlines, cons_append]
      · -- The element joins the first line, and there is one because more elements follow.
        rw [linesBy_cons_of_neg _ ha, linesBy_cons_of_neg _ ha, hlines]
        have hne := linesBy_ne_nil (p := p) (cons_ne_nil b front)
        obtain ⟨line, lines, hfront⟩ := exists_cons_of_ne_nil hne
        rw [hfront, cons_append, cons_append]

/-- Induction along the lines of a list: one that is not ended, or one that is and the rest. -/
theorem induction_by_lines [DecidableEq α] {motive : List α → Prop} (a : α)
    (last : ∀ l, a ∉ l → motive l)
    (line : ∀ l rest, a ∉ l → motive rest → motive (l ++ a :: rest)) (l : List α) : motive l := by
  -- What is behind the first line is shorter.
  induction hlen : l.length using Nat.strongRecOn generalizing l with
  | ind n ih =>
    by_cases ha : a ∈ l
    · obtain ⟨front, rest, rfl, hfront⟩ := eq_append_cons_of_mem ha
      rw [length_append, length_cons] at hlen
      exact line front rest hfront (ih rest.length (by omega) rest rfl)
    · exact last l ha

end List
