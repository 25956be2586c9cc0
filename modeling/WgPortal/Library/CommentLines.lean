import WgPortal.Library.SectionFile

/-! A file says the same without its comment lines, and without the blanks around its lines. -/

namespace WgPortal.Library.SectionFile

variable {c : Char} {line text : List Char}

def notHash (c : Char) : Bool := c ≠ '#'

def notEqual (c : Char) : Bool := c ≠ '='

theorem passes_of_blank (blank : isBlank c = true) : notHash c = true ∧ notEqual c = true := by
  constructor <;>
  · refine decide_eq_true ?_
    rintro rfl
    revert blank
    decide

theorem parseLine_cons_blank (blank : isBlank c = true) :
    parseLine (c :: line) = parseLine line := by
  obtain ⟨noComment, noEntry⟩ := passes_of_blank blank
  have stripped : uncommented (c :: line) = c :: uncommented line :=
    List.takeWhile_cons_of_pos noComment
  have keyed : keyOf (c :: uncommented line) = keyOf (uncommented line) :=
    (congrArg trim (List.takeWhile_cons_of_pos noEntry)).trans (trim_cons_blank blank)
  have valued : valueOf (c :: uncommented line) = valueOf (uncommented line) :=
    congrArg (fun text : List Char => trim (text.drop 1)) (List.dropWhile_cons_of_pos noEntry)
  simp only [parseLine, stripped, trim_cons_blank blank, keyed, valued]

theorem takeWhile_append_singleton {p : Char → Bool} (passes : p c = true) (text : List Char) :
    (text ++ [c]).takeWhile p = text.takeWhile p ∨
      (text ++ [c]).takeWhile p = text.takeWhile p ++ [c] := by
  rw [List.takeWhile_append]
  split
  · rename_i whole
    have same : text.takeWhile p = text := (List.takeWhile_sublist p).eq_of_length whole
    rw [List.takeWhile_cons_of_pos passes, List.takeWhile_nil, same]
    exact .inr rfl
  · exact .inl rfl

theorem dropWhile_append_singleton {p : Char → Bool} (passes : p c = true) (text : List Char) :
    (text ++ [c]).dropWhile p = text.dropWhile p ∨
      ∃ first rest, text.dropWhile p = first :: rest ∧
        (text ++ [c]).dropWhile p = first :: (rest ++ [c]) := by
  rw [List.dropWhile_append]
  cases dropped : text.dropWhile p with
  | nil =>
    rw [List.isEmpty_nil, if_pos rfl, List.dropWhile_cons_of_pos passes]
    exact .inl rfl
  | cons first rest => exact .inr ⟨first, rest, rfl, rfl⟩

theorem parseLine_append_blank (blank : isBlank c = true) :
    parseLine (line ++ [c]) = parseLine line := by
  obtain ⟨noComment, noEntry⟩ := passes_of_blank blank
  have keyed : ∀ text, keyOf (text ++ [c]) = keyOf text := by
    intro text
    rcases takeWhile_append_singleton noEntry text with same | same
    · exact congrArg trim same
    · exact (congrArg trim same).trans (trim_append_blank blank)
  have valued : ∀ text, valueOf (text ++ [c]) = valueOf text := by
    intro text
    rcases dropWhile_append_singleton noEntry text with same | ⟨first, rest, dropped, same⟩
    · exact congrArg (fun text : List Char => trim (text.drop 1)) same
    · have before : valueOf text = trim rest :=
        congrArg (fun text : List Char => trim (text.drop 1)) dropped
      rw [before, ← trim_append_blank blank]
      exact congrArg (fun text : List Char => trim (text.drop 1)) same
  rcases takeWhile_append_singleton noComment line with same | same
  · have stripped : uncommented (line ++ [c]) = uncommented line := same
    simp only [parseLine, stripped]
  · have stripped : uncommented (line ++ [c]) = uncommented line ++ [c] := same
    simp only [parseLine, stripped, trim_append_blank blank, keyed, valued]

/-- What is blank around a line does not count. -/
theorem parseLine_trim (line : List Char) : parseLine (trim line) = parseLine line := by
  have front : ∀ line : List Char, parseLine (line.dropWhile isBlank) = parseLine line := by
    intro line
    induction line with
    | nil => rfl
    | cons c line ih =>
      cases blank : isBlank c with
      | false => rw [List.dropWhile_cons_of_neg (by simp [blank])]
      | true => rw [List.dropWhile_cons_of_pos blank, ih, parseLine_cons_blank blank]
  have back : ∀ line : List Char,
      parseLine ((line.dropWhile isBlank).reverse) = parseLine line.reverse := by
    intro line
    induction line with
    | nil => rfl
    | cons c line ih =>
      cases blank : isBlank c with
      | false => rw [List.dropWhile_cons_of_neg (by simp [blank])]
      | true =>
        rw [List.dropWhile_cons_of_pos blank, ih, List.reverse_cons, parseLine_append_blank blank]
  rw [trim, back, List.reverse_reverse, front]

theorem parseLine_comment : parseLine ('#' :: text) = none := rfl

/-- The lines of a text, without comments and without blanks around them -/
def bareLines (lines : List (List Char)) : List (List Char) :=
  (lines.map trim).filter fun line => line.head? ≠ some '#'

theorem bareLines_cons (line : List Char) (lines : List (List Char)) :
    bareLines (line :: lines) =
      if (trim line).head? = some '#' then bareLines lines else trim line :: bareLines lines := by
  rw [bareLines, List.map_cons, List.filter_cons, bareLines]
  by_cases comment : (trim line).head? = some '#'
  · simp [comment]
  · simp [comment]

theorem filterMap_bareLines (lines : List (List Char)) :
    (bareLines lines).filterMap parseLine = lines.filterMap parseLine := by
  induction lines with
  | nil => rfl
  | cons line lines ih =>
    rw [bareLines_cons]
    by_cases comment : (trim line).head? = some '#'
    · obtain ⟨rest, trimmed⟩ := List.head?_eq_some_iff.mp comment
      have silent : parseLine line = none := by rw [← parseLine_trim, trimmed, parseLine_comment]
      rw [if_pos comment, ih, List.filterMap_cons_none silent]
    · rw [if_neg comment, List.filterMap_cons, List.filterMap_cons, parseLine_trim, ih]

/-- Whatever is read of a file is read of its bare lines. -/
theorem parse_bareLines {lines : List (List Char)} (oneLine : ∀ line ∈ lines, '\n' ∉ line) :
    parse ((bareLines lines).flatMap (· ++ ['\n'])) = lines.filterMap parseLine := by
  have joined : ∀ lines : List (List Char), (∀ line ∈ lines, '\n' ∉ line) →
      parse (lines.flatMap (· ++ ['\n'])) = lines.filterMap parseLine := by
    intro lines oneLine
    induction lines with
    | nil => rfl
    | cons line lines ih =>
      rw [List.forall_mem_cons] at oneLine
      rw [List.flatMap_cons, List.append_assoc, List.singleton_append, parse_append, ih oneLine.2,
        parse_oneLine oneLine.1, List.filterMap_cons]
      cases parseLine line <;> rfl
  rw [joined, filterMap_bareLines]
  intro bare mem
  obtain ⟨line, inside, rfl⟩ := List.mem_map.mp (List.mem_filter.mp mem).1
  exact fun broken => oneLine line inside ((trim_sublist line).subset broken)

end WgPortal.Library.SectionFile
