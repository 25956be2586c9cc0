import Mathlib.Data.List.Basic
import Mathlib.Data.List.TakeWhile

/-! Files of sections with keys and values, one on a line. A `#` starts a comment, and blanks
around a key or a value do not count. A text is written line by line, but what is written as one
line may be read as several. -/

namespace WgPortal.Library.SectionFile

inductive Item where
  | header (name : List Char)
  | entry (key value : List Char)
deriving DecidableEq

def isBlank (c : Char) : Bool := c ∈ [' ', '\t', '\n', '\x0b', '\x0c', '\r']

/-- The text without the blanks at both ends -/
def trim (text : List Char) : List Char :=
  ((text.dropWhile isBlank).reverse.dropWhile isBlank).reverse

/-- What stands before the comment -/
def uncommented (line : List Char) : List Char := line.takeWhile (· ≠ '#')

def keyOf (line : List Char) : List Char := trim (line.takeWhile (· ≠ '='))

def valueOf (line : List Char) : List Char := trim ((line.dropWhile (· ≠ '=')).drop 1)

/-- A line may be a comment, or blank. -/
def parseLine (line : List Char) : Option Item :=
  let stripped := uncommented line
  if trim stripped = [] then none
  else if (keyOf stripped).head? = some '[' then some (.header (keyOf stripped))
  else some (.entry (keyOf stripped) (valueOf stripped))

def parse (text : List Char) : List Item := (text.splitOn '\n').filterMap parseLine

structure Section where
  name : List Char
  entries : List (List Char × List Char)
deriving DecidableEq

/-- The entries before the first header, and the sections. -/
structure File where
  preamble : List (List Char × List Char)
  sections : List Section
deriving DecidableEq

def File.ofItems : List Item → File
  | [] => ⟨[], []⟩
  | .entry key value :: items =>
    let rest := ofItems items
    ⟨(key, value) :: rest.preamble, rest.sections⟩
  | .header name :: items =>
    let rest := ofItems items
    ⟨[], ⟨name, rest.preamble⟩ :: rest.sections⟩

def File.read (text : List Char) : File := ofItems (parse text)

/-- A line to be written. -/
inductive Line where
  | blank
  | comment (text : List Char)
  | header (name : List Char)
  | entry (key value : List Char)

def Line.text : Line → List Char
  | blank => []
  | comment text => '#' :: text
  | header name => name
  | entry key value => key ++ " = ".toList ++ value

/-- What is to be read. -/
def Line.item : Line → Option Item
  | blank => none
  | comment _ => none
  | header name => some (.header name)
  | entry key value => some (.entry key value)

def render (lines : List Line) : List Char := lines.flatMap (·.text ++ ['\n'])

/-- The line is read as what it was written for. -/
def Line.Faithful (line : Line) : Prop := parse line.text = line.item.toList

/-- The line is read as no more than it was written for. -/
def Line.Single (line : Line) : Prop := (parse line.text).length = line.item.toList.length

def itemsOf (lines : List Line) : List Item := lines.flatMap (·.item.toList)

/-- No line of the text but the first says anything. -/
def Quiet (text : List Char) : Prop := ∀ line ∈ (text.splitOn '\n').tail, parseLine line = none

/-- A value that is read as it is. -/
structure Plain (value : List Char) : Prop where
  oneLine : '\n' ∉ value
  uncommented : '#' ∉ value
  trimmed : trim value = value

/-- A key that can be written, whatever its value is. -/
structure Key (key : List Char) : Prop where
  plain : Plain key
  unequal : '=' ∉ key
  nonempty : key ≠ []
  entry : key.head? ≠ some '['

instance (line : Line) : Decidable line.Faithful :=
  inferInstanceAs (Decidable (parse line.text = line.item.toList))

instance (text : List Char) : Decidable (Quiet text) :=
  inferInstanceAs (Decidable (∀ line ∈ _, _))

instance (value : List Char) : Decidable (Plain value) :=
  decidable_of_iff ('\n' ∉ value ∧ '#' ∉ value ∧ trim value = value)
    ⟨fun h => ⟨h.1, h.2.1, h.2.2⟩, fun h => ⟨h.1, h.2, h.3⟩⟩

instance (key : List Char) : Decidable (Key key) :=
  decidable_of_iff (Plain key ∧ '=' ∉ key ∧ key ≠ [] ∧ key.head? ≠ some '[')
    ⟨fun h => ⟨h.1, h.2.1, h.2.2.1, h.2.2.2⟩, fun h => ⟨h.1, h.2, h.3, h.4⟩⟩

/-- A header, or an entry with a proper key. -/
def Line.Proper : Line → Prop
  | blank => True
  | comment _ => True
  | header name => (header name).Faithful
  | entry key _ => Key key

theorem parse_append (first rest : List Char) :
    parse (first ++ '\n' :: rest) = parse first ++ parse rest := by
  rw [parse, List.splitOn_append_cons_self, List.filterMap_append, parse, parse]

theorem parse_render (lines : List Line) :
    parse (render lines) = lines.flatMap fun line => parse line.text := by
  induction lines with
  | nil => rfl
  | cons line lines ih =>
    have split : render (line :: lines) = line.text ++ '\n' :: render lines := by
      rw [render, List.flatMap_cons, List.append_assoc]
      rfl
    rw [split, parse_append, ih, List.flatMap_cons]

/-- A text is split at its first line break. -/
theorem exists_first (text : List Char) :
    ∃ first, '\n' ∉ first ∧ (text = first ∨ ∃ rest, text = first ++ '\n' :: rest) := by
  induction text with
  | nil => exact ⟨[], List.not_mem_nil, .inl rfl⟩
  | cons c text ih =>
    by_cases last : c = '\n'
    · exact ⟨[], List.not_mem_nil, .inr ⟨text, by rw [last, List.nil_append]⟩⟩
    · obtain ⟨first, oneLine, whole⟩ := ih
      have oneLine' : '\n' ∉ c :: first := by
        rw [List.mem_cons, not_or]
        exact ⟨fun same => last same.symm, oneLine⟩
      rcases whole with rfl | ⟨rest, rfl⟩
      · exact ⟨c :: text, oneLine', .inl rfl⟩
      · exact ⟨c :: first, oneLine', .inr ⟨rest, rfl⟩⟩

theorem parse_oneLine {line : List Char} (oneLine : '\n' ∉ line) :
    parse line = (parseLine line).toList := by
  rw [parse, List.splitOn_eq_singleton oneLine]
  cases parsed : parseLine line <;> simp [parsed]

section Trim

variable {text : List Char} {c : Char}

theorem trim_sublist (text : List Char) : (trim text).Sublist text := by
  have first : (text.dropWhile isBlank).Sublist text := (List.dropWhile_suffix _).sublist
  have last : ((text.dropWhile isBlank).reverse.dropWhile isBlank).Sublist
      (text.dropWhile isBlank).reverse := (List.dropWhile_suffix _).sublist
  have reversed := last.reverse
  rw [List.reverse_reverse] at reversed
  exact reversed.trans first

theorem trim_eq_nil_iff : trim text = [] ↔ ∀ c ∈ text, isBlank c = true := by
  constructor
  · intro none
    have reversed := List.reverse_eq_nil_iff.mp none
    rw [List.dropWhile_eq_nil_iff] at reversed
    by_contra some
    rw [← List.dropWhile_eq_nil_iff] at some
    have head := List.head_dropWhile_not isBlank some
    rw [reversed _ (List.mem_reverse.mpr (List.head_mem some))] at head
    cases head
  · intro all
    rw [trim, List.dropWhile_eq_nil_iff.mpr all]
    rfl

theorem trim_cons_blank (blank : isBlank c = true) : trim (c :: text) = trim text := by
  rw [trim, List.dropWhile_cons_of_pos blank, trim]

theorem trim_append_blank (blank : isBlank c = true) : trim (text ++ [c]) = trim text := by
  by_cases none : text.dropWhile isBlank = []
  · have all := List.dropWhile_eq_nil_iff.mp none
    have all' : ∀ d ∈ text ++ [c], isBlank d = true := by
      intro d mem
      rcases List.mem_append.mp mem with inside | last
      · exact all d inside
      · rw [List.mem_singleton.mp last]
        exact blank
    rw [trim_eq_nil_iff.mpr all', trim_eq_nil_iff.mpr all]
  · have kept : (text ++ [c]).dropWhile isBlank = text.dropWhile isBlank ++ [c] := by
      rw [List.dropWhile_append, if_neg (by simpa using none)]
    rw [trim, kept, List.reverse_append, List.reverse_singleton, List.singleton_append,
      List.dropWhile_cons_of_pos blank, trim]

theorem trim_eq_self (visible : ∀ c ∈ text, isBlank c = false) : trim text = text := by
  have kept : ∀ list : List Char, (∀ c ∈ list, isBlank c = false) →
      list.dropWhile isBlank = list := by
    intro list visible
    cases list with
    | nil => rfl
    | cons c list => exact List.dropWhile_cons_of_neg (by simp [visible c List.mem_cons_self])
  rw [trim, kept text visible, kept _ fun c mem => visible c (List.mem_reverse.mp mem),
    List.reverse_reverse]

end Trim

theorem uncommented_append {first : List Char} (none : '#' ∉ first) (rest : List Char) :
    uncommented (first ++ rest) = first ++ uncommented rest := by
  refine List.takeWhile_append_of_pos fun c mem => decide_eq_true ?_
  rintro rfl
  exact none mem

theorem uncommented_eq_self {text : List Char} (none : '#' ∉ text) : uncommented text = text := by
  refine List.takeWhile_eq_self_iff.mpr fun c mem => decide_eq_true ?_
  rintro rfl
  exact none mem

theorem not_mem_uncommented (text : List Char) : '#' ∉ uncommented text := by
  intro mem
  have other := List.mem_takeWhile_imp mem
  simp at other

/-- What is read of the first line of an entry -/
theorem parseLine_entry {key : List Char} (proper : Key key) (value : List Char) :
    parseLine (Line.entry key value).text = some (.entry key (trim (uncommented value))) := by
  have front : '#' ∉ key ++ " = ".toList := by
    rw [List.mem_append, not_or]
    exact ⟨proper.plain.uncommented, by decide⟩
  have stripped : uncommented (Line.entry key value).text =
      key ++ ' ' :: '=' :: ' ' :: uncommented value := by
    rw [Line.text, uncommented_append front, List.append_assoc]
    rfl
  have before : ∀ c ∈ key ++ [' '], decide (c ≠ '=') = true := by
    intro c mem
    rcases List.mem_append.mp mem with inside | blank
    · refine decide_eq_true ?_
      rintro rfl
      exact proper.unequal inside
    · rw [List.mem_singleton.mp blank]
      decide
  have split : key ++ ' ' :: '=' :: ' ' :: uncommented value =
      (key ++ [' ']) ++ '=' :: ' ' :: uncommented value := by
    rw [List.append_assoc]
    rfl
  have keyed : keyOf (key ++ ' ' :: '=' :: ' ' :: uncommented value) = key := by
    rw [keyOf, split, List.takeWhile_append_of_pos before, List.takeWhile_cons_of_neg (by decide),
      List.append_nil, trim_append_blank (by decide), proper.plain.trimmed]
  have valued : valueOf (key ++ ' ' :: '=' :: ' ' :: uncommented value) =
      trim (uncommented value) := by
    rw [valueOf, split, List.dropWhile_append_of_pos before, List.dropWhile_cons_of_neg (by decide)]
    exact trim_cons_blank (by decide)
  have some : trim (key ++ ' ' :: '=' :: ' ' :: uncommented value) ≠ [] := by
    intro none
    have blank := trim_eq_nil_iff.mp none '=' (by simp)
    revert blank
    decide
  rw [parseLine]
  simp only [stripped, keyed, valued, if_neg some, if_neg proper.entry]

/-- Texts that need no care -/
def Visible (text : List Char) : Prop := ∀ c ∈ text, isBlank c = false ∧ c ≠ '#'

theorem Visible.plain {text : List Char} (visible : Visible text) : Plain text :=
  ⟨fun mem => absurd (visible _ mem).1 (by decide), fun mem => (visible _ mem).2 rfl,
    trim_eq_self fun c mem => (visible c mem).1⟩

/-- What a text in front of a value changes -/
theorem tail_splitOn_append {first : List Char} (oneLine : '\n' ∉ first) (rest : List Char) :
    ((first ++ rest).splitOn '\n').tail = (rest.splitOn '\n').tail := by
  induction first with
  | nil => rfl
  | cons c first ih =>
    rw [List.mem_cons, not_or] at oneLine
    have other : (c == '\n') = false := by simpa using fun same => oneLine.1 same.symm
    rw [List.cons_append, List.splitOn_cons_eq_if_modifyHead, other, if_neg Bool.false_ne_true,
      List.tail_modifyHead, ih oneLine.2]

theorem quiet_append {first : List Char} (oneLine : '\n' ∉ first) (rest : List Char) :
    Quiet (first ++ rest) ↔ Quiet rest := by
  rw [Quiet, tail_splitOn_append oneLine, Quiet]

theorem quiet_of_oneLine {text : List Char} (oneLine : '\n' ∉ text) : Quiet text := by
  intro line mem
  rw [List.splitOn_eq_singleton oneLine] at mem
  cases mem

theorem Plain.quiet {value : List Char} (plain : Plain value) : Quiet value :=
  quiet_of_oneLine plain.oneLine

theorem single_comment {text : List Char} : (Line.comment text).Single ↔ Quiet text := by
  have mark : '\n' ∉ ['#'] := by decide
  have lines : (('#' :: text).splitOn '\n').tail = (text.splitOn '\n').tail :=
    tail_splitOn_append mark text
  rw [Quiet, ← lines, Line.Single, Line.text, Line.item, Option.toList_none, List.length_nil,
    List.length_eq_zero_iff, parse, List.filterMap_eq_nil_iff]
  obtain ⟨line, lines, split⟩ := List.exists_cons_of_ne_nil (List.splitOn_ne_nil '\n' ('#' :: text))
  have silent : parseLine line = none := by
    rw [List.splitOn_cons_eq_if_modifyHead, if_neg (by decide)] at split
    obtain ⟨line', lines', split'⟩ := List.exists_cons_of_ne_nil (List.splitOn_ne_nil '\n' text)
    rw [split', List.modifyHead_cons] at split
    rw [← (List.cons.inj split).1]
    rfl
  rw [split, List.forall_mem_cons, List.tail_cons]
  exact and_iff_right silent

/-- Comments say nothing, or too much. -/
theorem faithful_comment {text : List Char} : (Line.comment text).Faithful ↔ Quiet text :=
  List.length_eq_zero_iff.symm.trans single_comment

/-- The items that an entry is read as, whatever its value is. -/
theorem parse_entry {key : List Char} (proper : Key key) (value : List Char) :
    ∃ first, '\n' ∉ first ∧ (value = first ∨ '\n' ∈ value) ∧
      ∃ items, parse (Line.entry key value).text =
        .entry key (trim (uncommented first)) :: items ∧ (items = [] ↔ Quiet value) := by
  obtain ⟨first, oneLine, whole⟩ := exists_first value
  have front : '\n' ∉ (Line.entry key first).text := by
    rw [Line.text, List.mem_append, List.mem_append, not_or, not_or]
    exact ⟨⟨proper.plain.oneLine, by decide⟩, oneLine⟩
  have single : parse (Line.entry key first).text = [.entry key (trim (uncommented first))] := by
    rw [parse_oneLine front, parseLine_entry proper]
    rfl
  rcases whole with rfl | ⟨rest, rfl⟩
  · exact ⟨value, oneLine, .inl rfl, [], single, iff_of_true rfl (quiet_of_oneLine oneLine)⟩
  · have broken : '\n' ∈ first ++ '\n' :: rest := List.mem_append_right _ List.mem_cons_self
    have split : (Line.entry key (first ++ '\n' :: rest)).text =
        (Line.entry key first).text ++ '\n' :: rest := by
      rw [Line.text, Line.text, List.append_assoc, List.append_assoc, List.append_assoc]
    have later : ((first ++ '\n' :: rest).splitOn '\n').tail = rest.splitOn '\n' := by
      rw [List.splitOn_append_cons_self, List.splitOn_eq_singleton oneLine]
      rfl
    refine ⟨first, oneLine, .inr broken, parse rest, ?_, ?_⟩
    · rw [split, parse_append, single, List.singleton_append]
    · rw [parse, List.filterMap_eq_nil_iff, Quiet, later]

/-- With one line at most, an entry keeps its key. -/
theorem single_entry {key value : List Char} (proper : Key key) :
    (Line.entry key value).Single ↔ Quiet value := by
  obtain ⟨first, _, _, items, parsed, quiet⟩ := parse_entry proper value
  rw [Line.Single, parsed, ← quiet, Line.item, Option.toList_some, List.length_cons,
    List.length_singleton, Nat.add_eq_right, List.length_eq_zero_iff]

theorem parse_of_single {key value : List Char} (proper : Key key)
    (single : (Line.entry key value).Single) :
    ∃ value', parse (Line.entry key value).text = [.entry key value'] := by
  obtain ⟨first, _, _, items, parsed, quiet⟩ := parse_entry proper value
  rw [quiet.mpr ((single_entry proper).mp single)] at parsed
  exact ⟨_, parsed⟩

/-- An entry is read as it is exactly if its value is. -/
theorem faithful_entry {key value : List Char} (proper : Key key) :
    (Line.entry key value).Faithful ↔ Plain value := by
  obtain ⟨first, oneLine, whole, items, parsed, quiet⟩ := parse_entry proper value
  have within : (trim (uncommented first)).Sublist first :=
    (trim_sublist _).trans (List.takeWhile_prefix _).sublist
  constructor
  · intro faithful
    rw [Line.Faithful, Line.item, Option.toList_some, parsed] at faithful
    have same := (Item.entry.inj (List.cons.inj faithful).1).2
    obtain rfl : value = first :=
      whole.resolve_right fun broken => oneLine (within.subset (same ▸ broken))
    have plain : '#' ∉ value := by
      intro mem
      rw [← same] at mem
      exact not_mem_uncommented value ((trim_sublist _).subset mem)
    exact ⟨oneLine, plain, by rwa [uncommented_eq_self plain] at same⟩
  · intro plain
    obtain rfl := whole.resolve_right plain.oneLine
    rw [Line.Faithful, parsed, quiet.mpr (quiet_of_oneLine oneLine),
      uncommented_eq_self plain.uncommented, plain.trimmed]
    rfl

/-- What is written as one line is read as one at least. -/
theorem Line.Proper.length_le {line : Line} (proper : line.Proper) :
    line.item.toList.length ≤ (parse line.text).length := by
  cases line with
  | blank => exact Nat.zero_le _
  | comment text => exact Nat.zero_le _
  | header name => exact (congrArg List.length proper).symm.le
  | entry key value =>
    obtain ⟨first, _, _, items, parsed, _⟩ := parse_entry proper value
    rw [parsed]
    exact Nat.succ_le_succ (Nat.zero_le items.length)

section Parts

variable {α β : Type} {f g : α → List β} {list : List α}

theorem length_flatMap_le (shorter : ∀ a ∈ list, (g a).length ≤ (f a).length) :
    (list.flatMap g).length ≤ (list.flatMap f).length := by
  induction list with
  | nil => exact Nat.le_refl _
  | cons a list ih =>
    rw [List.forall_mem_cons] at shorter
    simpa only [List.flatMap_cons, List.length_append] using
      Nat.add_le_add shorter.1 (ih shorter.2)

/-- Parts of which none is too short are as long as they should be if together they are. -/
theorem length_eq_of_flatMap (shorter : ∀ a ∈ list, (g a).length ≤ (f a).length)
    (total : (list.flatMap f).length = (list.flatMap g).length) :
    ∀ a ∈ list, (f a).length = (g a).length := by
  induction list with
  | nil => exact List.forall_mem_nil _
  | cons a list ih =>
    rw [List.forall_mem_cons] at shorter ⊢
    rw [List.flatMap_cons, List.flatMap_cons, List.length_append, List.length_append] at total
    have rest := length_flatMap_le shorter.2
    have first := shorter.1
    exact ⟨by omega, ih shorter.2 (by omega)⟩

theorem eq_of_flatMap (lengths : ∀ a ∈ list, (f a).length = (g a).length)
    (same : list.flatMap f = list.flatMap g) : ∀ a ∈ list, f a = g a := by
  induction list with
  | nil => exact List.forall_mem_nil _
  | cons a list ih =>
    rw [List.forall_mem_cons] at lengths ⊢
    rw [List.flatMap_cons, List.flatMap_cons] at same
    obtain ⟨here, later⟩ := List.append_inj same lengths.1
    exact ⟨here, ih lengths.2 later⟩

end Parts

theorem Line.Faithful.single {line : Line} (faithful : line.Faithful) : line.Single :=
  congrArg List.length faithful

/-- The first lines are read as they were written, and of the others no more than was written,
exactly if that holds of every line. -/
theorem parse_render_append_iff {strict loose : List Line}
    (proper : ∀ line ∈ strict ++ loose, line.Proper) :
    (∃ items, parse (render (strict ++ loose)) = itemsOf strict ++ items ∧
      items.length = (itemsOf loose).length) ↔
      (∀ line ∈ strict, line.Faithful) ∧ ∀ line ∈ loose, line.Single := by
  have shorter : ∀ line ∈ strict ++ loose,
      line.item.toList.length ≤ (parse line.text).length :=
    fun line mem => (proper line mem).length_le
  rw [parse_render]
  constructor
  · rintro ⟨items, parsed, length⟩
    have total := congrArg List.length parsed
    rw [List.length_append, length, ← List.length_append, itemsOf, itemsOf,
      ← List.flatMap_append] at total
    have single := length_eq_of_flatMap shorter total
    rw [List.forall_mem_append] at single
    rw [List.flatMap_append] at parsed
    refine ⟨eq_of_flatMap single.1 (List.append_inj parsed ?_).1, single.2⟩
    rw [List.length_flatMap, itemsOf, List.length_flatMap]
    exact congrArg List.sum (List.map_congr_left single.1)
  · rintro ⟨faithful, single⟩
    refine ⟨_, by rw [List.flatMap_append, List.flatMap_congr faithful, itemsOf], ?_⟩
    rw [List.length_flatMap, itemsOf, List.length_flatMap]
    exact congrArg List.sum (List.map_congr_left single)

def Section.items (s : Section) : List Item :=
  .header s.name :: s.entries.map fun entry => .entry entry.1 entry.2

/-- The items of a file, in their order -/
def File.items (file : File) : List Item :=
  file.preamble.map (fun entry => .entry entry.1 entry.2) ++ file.sections.flatMap Section.items

theorem File.items_ofItems (items : List Item) : (File.ofItems items).items = items := by
  induction items with
  | nil => rfl
  | cons item items ih =>
    cases item with
    | entry key value => exact congrArg (.entry key value :: ·) ih
    | header name => exact congrArg (.header name :: ·) ih

/-- Entries in front of the rest of a file -/
theorem File.ofItems_entries (entries : List (List Char × List Char)) (items : List Item) :
    File.ofItems (entries.map (fun entry => .entry entry.1 entry.2) ++ items) =
      ⟨entries ++ (File.ofItems items).preamble, (File.ofItems items).sections⟩ := by
  induction entries with
  | nil => rfl
  | cons entry entries ih =>
    rw [List.map_cons, List.cons_append, File.ofItems, ih]
    rfl

/-- Every file is one of its items. -/
theorem File.ofItems_items (file : File) : File.ofItems file.items = file := by
  obtain ⟨preamble, sections⟩ := file
  have alone : File.ofItems (sections.flatMap Section.items) = ⟨[], sections⟩ := by
    induction sections with
    | nil => rfl
    | cons s sections ih =>
      rw [List.flatMap_cons, Section.items, List.cons_append, File.ofItems, File.ofItems_entries, ih]
      simp only [List.append_nil]
  rw [File.items, File.ofItems_entries, alone]
  simp only [List.append_nil]

end WgPortal.Library.SectionFile
