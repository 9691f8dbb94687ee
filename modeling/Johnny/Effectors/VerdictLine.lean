import Johnny.Effectors.CodeExec
import Johnny.Foundation.PrintedJson

/-!
# The line of the verdict

What was printed before it on the same line stays in front of it, and nothing else does.
-/
namespace Johnny

/-- What a text leaves unfinished behind its last line break, with the line so far backwards. -/
def unfinished (current : List Char) : List Char → List Char
  | [] => current.reverse
  | c :: cs => if isLineBreak c then unfinished [] cs else unfinished (c :: current) cs

section lines
variable {current cs ds rest : List Char} {c : Char}

theorem splitLinesFrom_plain (plain : isLineBreak c = false) :
    splitLinesFrom current (c :: rest) = splitLinesFrom (c :: current) rest := by
  have other : c ≠ '\r' := by
    rintro rfl
    cases plain
  rw [splitLinesFrom]
  · rw [if_neg (by rw [plain]; exact Bool.false_ne_true)]
  · intro rest' carriage
    exact absurd carriage other

theorem splitLinesFrom_break (broken : isLineBreak c = true)
    (single : ∀ tail, c = '\r' → rest ≠ '\n' :: tail) :
    splitLinesFrom current (c :: rest) = String.ofList current.reverse :: splitLinesFrom [] rest := by
  rw [splitLinesFrom]
  · rw [if_pos broken]
  · intro tail carriage same
    exact single tail carriage same

/-- A text without line breaks is one line. -/
theorem splitLinesFrom_line (free : ∀ c ∈ cs, isLineBreak c = false) :
    splitLinesFrom current (cs ++ ['\n']) = [String.ofList (current.reverse ++ cs)] := by
  induction cs generalizing current with
  | nil =>
      rw [List.append_nil]
      rfl
  | cons c cs ih =>
      rw [List.cons_append, splitLinesFrom_plain (free c List.mem_cons_self),
        ih fun d inside => free d (List.mem_cons_of_mem c inside), List.reverse_cons,
        List.append_assoc]
      rfl

/-- The last line is what the text before it left unfinished, and the line. -/
theorem splitLinesFrom_last {j : List Char} (some : j ≠ []) (free : ∀ c ∈ j, isLineBreak c = false)
    (current text : List Char) : ∃ lines, splitLinesFrom current (text ++ (j ++ ['\n'])) =
      lines ++ [String.ofList (unfinished current text ++ j)] := by
  induction current, text using splitLinesFrom.induct with
  | case1 => exact ⟨[], splitLinesFrom_line free⟩
  | case2 current _ => exact ⟨[], splitLinesFrom_line free⟩
  | case3 current text ih =>
      obtain ⟨lines, split⟩ := ih
      refine ⟨String.ofList current.reverse :: lines, ?_⟩
      rw [List.cons_append, List.cons_append, splitLinesFrom, split]
      rfl
  | case4 current c text single broken ih =>
      obtain ⟨lines, split⟩ := ih
      refine ⟨String.ofList current.reverse :: lines, ?_⟩
      rw [List.cons_append, splitLinesFrom_break broken, split, unfinished, if_pos broken]
      · rfl
      · intro tail carriage same
        cases text with
        | nil =>
            cases j with
            | nil => exact some rfl
            | cons d j =>
                cases same
                cases free '\n' List.mem_cons_self
        | cons d text =>
            cases same
            exact single text carriage rfl
  | case5 current c text single plain ih =>
      obtain ⟨lines, split⟩ := ih
      have plain := Bool.eq_false_iff.mpr plain
      refine ⟨lines, ?_⟩
      rw [List.cons_append, splitLinesFrom_plain plain, split, unfinished, if_neg]
      rw [plain]
      exact Bool.false_ne_true

theorem unfinished_append (current cs ds : List Char) :
    unfinished current (cs ++ ds) = unfinished (unfinished current cs).reverse ds := by
  induction cs generalizing current with
  | nil =>
      rw [unfinished, List.reverse_reverse]
      rfl
  | cons c cs ih =>
      rw [List.cons_append, unfinished, unfinished]
      split
      · exact ih []
      · exact ih (c :: current)

theorem unfinished_free (free : ∀ c ∈ cs, isLineBreak c = false) (current : List Char) :
    unfinished current cs = current.reverse ++ cs := by
  induction cs generalizing current with
  | nil =>
      rw [List.append_nil]
      rfl
  | cons c cs ih =>
      have plain : ¬ isLineBreak c = true := by
        rw [free c List.mem_cons_self]
        exact Bool.false_ne_true
      rw [unfinished, if_neg plain, ih fun d inside => free d (List.mem_cons_of_mem c inside),
        List.reverse_cons, List.append_assoc]
      rfl

theorem backslashed_free (free : ∀ c ∈ cs, isLineBreak c = false) :
    ∀ c ∈ backslashed cs, isLineBreak c = false := by
  intro c inside
  obtain ⟨d, among, shown⟩ := List.mem_flatMap.mp inside
  split_ifs at shown
  · rcases List.mem_cons.mp shown with rfl | same
    · rfl
    · rw [List.mem_singleton.mp same]
      exact free d among
  · rw [List.mem_singleton.mp shown]
    exact free d among

/-- A line break cuts what is in front of it off, and no escape in two. -/
theorem unfinished_backslashed (broken : ∃ c ∈ cs, isLineBreak c = true) (current : List Char) :
    ∃ ds, unfinished current (backslashed cs) = backslashed ds := by
  induction cs generalizing current with
  | nil =>
      obtain ⟨c, inside, -⟩ := broken
      cases inside
  | cons c cs ih =>
      have tail (plain : isLineBreak c = false) : ∃ d ∈ cs, isLineBreak d = true := by
        obtain ⟨d, inside, found⟩ := broken
        rcases List.mem_cons.mp inside with rfl | inside
        · cases plain.symm.trans found
        · exact ⟨d, inside, found⟩
      by_cases marked : c = '"' ∨ c = '\\'
      · have plain : isLineBreak c = false := by
          rcases marked with rfl | rfl <;> rfl
        have step : unfinished current (backslashed (c :: cs)) =
            unfinished (c :: '\\' :: current) (backslashed cs) := by
          rw [backslashed_cons_of_marked marked, unfinished, if_neg (by decide), unfinished, plain]
          rfl
        rw [step]
        exact ih (tail plain) _
      · rw [backslashed_cons_of_plain marked, unfinished]
        cases found : isLineBreak c with
        | true =>
            rw [if_pos rfl]
            by_cases again : ∃ d ∈ cs, isLineBreak d = true
            · exact ih again []
            · refine ⟨cs, ?_⟩
              rw [unfinished_free (backslashed_free fun d inside => ?_)]
              · rfl
              · exact Bool.eq_false_iff.mpr fun found => again ⟨d, inside, found⟩
        | false =>
            rw [if_neg Bool.false_ne_true]
            exact ih (tail found) _

/-- Only what is in front of a line that starts and ends solid is stripped. -/
theorem strip_append {j : List Char} {first last : Char} {middle : List Char}
    (shape : j = first :: (middle ++ [last])) (starts : isSpace first = false)
    (ends : isSpace last = false) (before : List Char) :
    strip (String.ofList (before ++ j)) = String.ofList (before.dropWhile isSpace ++ j) := by
  have front : (before ++ j).dropWhile isSpace = before.dropWhile isSpace ++ j := by
    rw [List.dropWhile_append]
    split
    · next empty =>
        rw [List.isEmpty_iff.mp empty, shape, List.dropWhile_cons, starts]
        rfl
    · rfl
  have back : (before.dropWhile isSpace ++ j).reverse =
      last :: (before.dropWhile isSpace ++ first :: middle).reverse := by
    rw [shape, ← List.cons_append, ← List.append_assoc, List.reverse_append]
    rfl
  unfold strip stripBy
  rw [String.toList_ofList, front, back, List.dropWhile_cons, ends, if_neg Bool.false_ne_true,
    ← back, List.reverse_reverse]

/-- The tool finds the last line that was printed, with what was in front of it. -/
theorem lastJsonLine_append {j : List Char} {first last : Char} {middle : List Char}
    (shape : j = first :: (middle ++ [last])) (starts : isSpace first = false)
    (ends : isSpace last = false) (free : ∀ c ∈ j, isLineBreak c = false) (text : List Char) :
    lastJsonLine (String.ofList (text ++ (j ++ ['\n']))) =
      some (String.ofList ((unfinished [] text).dropWhile isSpace ++ j)) := by
  have nonempty : j ≠ [] := by
    rw [shape]
    exact List.cons_ne_nil _ _
  obtain ⟨lines, split⟩ := splitLinesFrom_last nonempty free [] text
  have stripped := strip_append shape starts ends (unfinished [] text)
  have shown : strip (String.ofList (unfinished [] text ++ j)) ≠ "" := by
    rw [stripped]
    intro empty
    have none := congrArg String.toList empty
    rw [String.toList_ofList] at none
    exact nonempty (List.append_eq_nil_iff.mp none).2
  unfold lastJsonLine splitLines
  rw [String.toList_ofList, split, List.reverse_append, List.reverse_singleton,
    List.singleton_append, List.find?_cons_of_pos, Option.map_some, stripped]
  exact decide_eq_true shown

end lines
end Johnny
