import Mathlib.Data.Bool.AllAny
import Mathlib.Data.List.Basic
import Mathlib.Data.Int.Basic
import Mathlib.Algebra.Order.BigOperators.Group.List
import Mathlib.Tactic.Linarith
import Mathlib.Tactic.Ring

/-! The search filters of LDAP directories as texts. A text is read by the syntax tree that it
is the text of; the symbols of the values may be characters, octets or holes. -/

namespace WgPortal.Library.LdapFilter

def isKeyChar (c : Char) : Bool := c.isAlphanum || c = '-'

def isDescriptor : List Char → Bool
  | [] => false
  | c :: text => c.isAlpha && text.all isKeyChar

def isNumber : List Char → Bool
  | [] => false
  | c :: text => (c :: text).all Char.isDigit && (c ≠ '0' || text = [])

/-- A name, or at least two numbers with dots between them. -/
def IsOid (text : List Char) : Prop :=
  isDescriptor text ∨ ∃ (number : List Char) (numbers : List (List Char)), isNumber number ∧
    numbers ≠ [] ∧ (∀ n ∈ numbers, isNumber n) ∧ text = number ++ numbers.flatMap ('.' :: ·)

/-- An attribute with its options -/
def IsAttribute (text : List Char) : Prop :=
  ∃ (oid : List Char) (options : List (List Char)), IsOid oid ∧
    (∀ o ∈ options, o ≠ [] ∧ o.all isKeyChar) ∧ text = oid ++ options.flatMap (';' :: ·)

def dnAttrs : List (List Char) :=
  [[], [':', 'd', 'n'], [':', 'd', 'N'], [':', 'D', 'n'], [':', 'D', 'N']]

def marks : List (List Char) := [[], ['~'], ['>'], ['<']]

/-- What may stand before the equals sign and a value. -/
inductive IsHead : List Char → Prop
  | simple {attr mark : List Char} (valid : IsAttribute attr)
    (known : mark ∈ marks) : IsHead (attr ++ mark)
  | extensible {attr dn : List Char} (valid : IsAttribute attr) (known : dn ∈ dnAttrs) :
    IsHead (attr ++ dn ++ [':'])
  | extensibleBy {attr dn rule : List Char} (valid : attr = [] ∨ IsAttribute attr)
    (known : dn ∈ dnAttrs) (named : IsOid rule) : IsHead (attr ++ dn ++ ':' :: rule ++ [':'])

structure Head where
  text : List Char
  valid : IsHead text

structure Attribute where
  text : List Char
  valid : IsAttribute text

/-- The characters that stand for themselves in a value. -/
def isNormal (c : Char) : Bool := c ∉ ['\x00', '(', ')', '*', '\\']

def hexDigits : List Char := "0123456789abcdefABCDEF".toList

def hexValue (c : Char) : ℕ :=
  if hexDigits.idxOf c < 16 then hexDigits.idxOf c else hexDigits.idxOf c - 6

/-- What the values are written with -/
inductive Letter where
  | normal (c : Char) (ok : isNormal c)
  | escaped (high low : Char) (hexHigh : high ∈ hexDigits) (hexLow : low ∈ hexDigits)

def Letter.text : Letter → List Char
  | normal c _ => [c]
  | escaped high low _ _ => ['\\', high, low]

def Letter.octets : Letter → List UInt8
  | normal c _ => String.utf8EncodeChar c
  | escaped high low _ _ => [UInt8.ofNat (hexValue high * 16 + hexValue low)]

/-- The filters that look at the values of an attribute. -/
inductive Item (α : Type) where
  | value (head : Head) (assertion : List α)
  | present (attr : Attribute)
  | substrings (attr : Attribute) (initial : List α) (any : List (List α)) (final : List α)

mutual

/-- A filter whose values are texts of any symbols. -/
inductive Query (α : Type) where
  | and (filters : Queries α)
  | or (filters : Queries α)
  | not (filter : Query α)
  | item (item : Item α)

inductive Queries (α : Type) where
  | one (filter : Query α)
  | more (filter : Query α) (filters : Queries α)

end

variable {α β σ τ : Type}

namespace Item

def head : Item α → List Char
  | value head _ => head.text
  | present attr => attr.text
  | substrings attr _ _ _ => attr.text

/-- The values between the asterisks -/
def parts : Item α → List (List α)
  | value _ assertion => [assertion]
  | present _ => [[], []]
  | substrings _ initial any final => initial :: (any ++ [final])

/-- An asterisk alone asks for the presence of the attribute. -/
def Proper : Item α → Prop
  | substrings _ initial any final => ¬(initial = [] ∧ any = [] ∧ final = [])
  | _ => True

def map (g : α → List β) : Item α → Item β
  | value head assertion => value head (assertion.flatMap g)
  | present attr => present attr
  | substrings attr initial any final =>
    substrings attr (initial.flatMap g) (any.map (·.flatMap g)) (final.flatMap g)

end Item

section
variable (write : α → List σ) (embed : Char → σ)

def starred : List (List α) → List σ
  | [] => []
  | [v] => v.flatMap write
  | v :: w :: parts => v.flatMap write ++ embed '*' :: starred (w :: parts)

def Item.text (i : Item α) : List σ :=
  i.head.map embed ++ embed '=' :: starred write embed i.parts

mutual

/-- The text of a filter, for the texts of its symbols and characters. -/
def Query.text : Query α → List σ
  | .and filters => embed '(' :: embed '&' :: (filters.text ++ [embed ')'])
  | .or filters => embed '(' :: embed '|' :: (filters.text ++ [embed ')'])
  | .not filter => embed '(' :: embed '!' :: (filter.text ++ [embed ')'])
  | .item i => embed '(' :: (i.text write embed ++ [embed ')'])

def Queries.text : Queries α → List σ
  | .one filter => filter.text
  | .more filter filters => filter.text ++ filters.text

end

end

mutual

def Query.Proper : Query α → Prop
  | .and filters => filters.Proper
  | .or filters => filters.Proper
  | .not filter => filter.Proper
  | .item i => i.Proper

def Queries.Proper : Queries α → Prop
  | .one filter => filter.Proper
  | .more filter filters => filter.Proper ∧ filters.Proper

end

mutual

def Query.map (g : α → List β) : Query α → Query β
  | .and filters => .and (filters.map g)
  | .or filters => .or (filters.map g)
  | .not filter => .not (filter.map g)
  | .item i => .item (i.map g)

def Queries.map (g : α → List β) : Queries α → Queries β
  | .one filter => .one (filter.map g)
  | .more filter filters => .more (filter.map g) (filters.map g)

end

mutual

/-- The symbols of all values -/
def Query.symbols : Query α → List α
  | .and filters => filters.symbols
  | .or filters => filters.symbols
  | .not filter => filter.symbols
  | .item i => i.parts.flatten

def Queries.symbols : Queries α → List α
  | .one filter => filter.symbols
  | .more filter filters => filter.symbols ++ filters.symbols

end

/-- The text is that of a filter with these values. -/
def ReadAs (text : List Char) (tree : Query UInt8) : Prop :=
  ∃ s : Query Letter, s.Proper ∧ s.text Letter.text id = text ∧ s.map Letter.octets = tree

section
variable {write : α → List σ} {embed : Char → σ}

theorem Item.head_map (g : α → List β) (i : Item α) : (i.map g).head = i.head := by
  cases i <;> rfl

theorem Item.parts_map (g : α → List β) (i : Item α) :
    (i.map g).parts = i.parts.map (·.flatMap g) := by
  cases i <;> simp [Item.map, Item.parts]

theorem starred_map (g : α → List β) {write : β → List σ} : ∀ parts : List (List α),
    starred write embed (parts.map (·.flatMap g)) =
      starred (fun a => (g a).flatMap write) embed parts
  | [] => rfl
  | [v] => List.flatMap_assoc
  | v :: w :: parts => by
    have rest := @starred_map g write (w :: parts)
    simp only [List.map_cons] at rest
    simp only [List.map_cons, starred, rest, List.flatMap_assoc]

theorem Item.text_map (g : α → List β) {write : β → List σ} (i : Item α) :
    (i.map g).text write embed = i.text (fun a => (g a).flatMap write) embed := by
  simp only [Item.text, head_map, parts_map, starred_map]

mutual

theorem Query.text_map (g : α → List β) {write : β → List σ} : ∀ f : Query α,
    (f.map g).text write embed = f.text (fun a => (g a).flatMap write) embed
  | .and fs => by simp only [Query.map, Query.text, Queries.text_map g fs]
  | .or fs => by simp only [Query.map, Query.text, Queries.text_map g fs]
  | .not f => by simp only [Query.map, Query.text, Query.text_map g f]
  | .item i => by simp only [Query.map, Query.text, Item.text_map g i]

theorem Queries.text_map (g : α → List β) {write : β → List σ} : ∀ fs : Queries α,
    (fs.map g).text write embed = fs.text (fun a => (g a).flatMap write) embed
  | .one f => Query.text_map g f
  | .more f fs => by
    simp only [Queries.map, Queries.text, Query.text_map g f, Queries.text_map g fs]

end

section
variable {h : σ → List τ} {embed' : Char → τ}

theorem flatMap_embed (single : ∀ c, h (embed c) = [embed' c]) (text : List Char) :
    (text.map embed).flatMap h = text.map embed' := by
  rw [List.flatMap_map, List.map_eq_flatMap]
  simp only [single]

theorem flatMap_starred (single : ∀ c, h (embed c) = [embed' c]) : ∀ parts : List (List α),
    (starred write embed parts).flatMap h = starred (fun a => (write a).flatMap h) embed' parts
  | [] => rfl
  | [v] => List.flatMap_assoc
  | v :: w :: parts => by
    simp only [starred, List.flatMap_append, List.flatMap_cons, List.flatMap_assoc, single,
      flatMap_starred single (w :: parts), List.singleton_append]

theorem Item.flatMap_text (single : ∀ c, h (embed c) = [embed' c]) (i : Item α) :
    (i.text write embed).flatMap h = i.text (fun a => (write a).flatMap h) embed' := by
  simp only [Item.text, List.flatMap_append, List.flatMap_cons, flatMap_embed single, single,
    flatMap_starred single, List.singleton_append]

mutual

theorem Query.flatMap_text (single : ∀ c, h (embed c) = [embed' c]) : ∀ f : Query α,
    (f.text write embed).flatMap h = f.text (fun a => (write a).flatMap h) embed'
  | .and fs | .or fs => by
    simp only [Query.text, List.flatMap_cons, List.flatMap_append, single,
      Queries.flatMap_text single fs, List.singleton_append, List.flatMap_nil]
  | .not f => by
    simp only [Query.text, List.flatMap_cons, List.flatMap_append, single,
      Query.flatMap_text single f, List.singleton_append, List.flatMap_nil]
  | .item i => by
    simp only [Query.text, List.flatMap_cons, List.flatMap_append, single,
      i.flatMap_text single, List.singleton_append, List.flatMap_nil]

theorem Queries.flatMap_text (single : ∀ c, h (embed c) = [embed' c]) : ∀ fs : Queries α,
    (fs.text write embed).flatMap h = fs.text (fun a => (write a).flatMap h) embed'
  | .one f => Query.flatMap_text single f
  | .more f fs => by
    simp only [Queries.text, List.flatMap_append, Query.flatMap_text single f,
      Queries.flatMap_text single fs]

end

end

end

theorem Item.proper_map {g : α → List β} (kept : ∀ a, g a ≠ []) (i : Item α) :
    (i.map g).Proper ↔ i.Proper := by
  have empty : ∀ v : List α, v.flatMap g = [] ↔ v = [] := by
    intro v
    rw [List.flatMap_eq_nil_iff, List.eq_nil_iff_forall_not_mem]
    exact ⟨fun none a mem => kept a (none a mem), fun none a mem => absurd mem (none a)⟩
  cases i with
  | value head v => rfl
  | present attr => rfl
  | substrings attr initial any final =>
    simp only [Item.map, Item.Proper, empty, List.map_eq_nil_iff]

mutual

theorem Query.proper_map {g : α → List β} (kept : ∀ a, g a ≠ []) : ∀ f : Query α,
    (f.map g).Proper ↔ f.Proper
  | .and fs | .or fs => Queries.proper_map kept fs
  | .not f => Query.proper_map kept f
  | .item i => i.proper_map kept

theorem Queries.proper_map {g : α → List β} (kept : ∀ a, g a ≠ []) : ∀ fs : Queries α,
    (fs.map g).Proper ↔ fs.Proper
  | .one f => Query.proper_map kept f
  | .more f fs => and_congr (Query.proper_map kept f) (Queries.proper_map kept fs)

end

theorem Item.map_map (g : α → List β) (g' : β → List σ) (i : Item α) :
    (i.map g).map g' = i.map fun a => (g a).flatMap g' := by
  cases i with
  | value head v => simp only [Item.map, List.flatMap_assoc]
  | present attr => rfl
  | substrings attr initial any final =>
    simp only [Item.map, List.flatMap_assoc, List.map_map, Function.comp_def]

mutual

theorem Query.map_map (g : α → List β) (g' : β → List σ) : ∀ f : Query α,
    (f.map g).map g' = f.map fun a => (g a).flatMap g'
  | .and fs | .or fs => by simp only [Query.map, Queries.map_map g g' fs]
  | .not f => by simp only [Query.map, Query.map_map g g' f]
  | .item i => by simp only [Query.map, i.map_map]

theorem Queries.map_map (g : α → List β) (g' : β → List σ) : ∀ fs : Queries α,
    (fs.map g).map g' = fs.map fun a => (g a).flatMap g'
  | .one f => by simp only [Queries.map, Query.map_map g g' f]
  | .more f fs => by simp only [Queries.map, Query.map_map g g' f, Queries.map_map g g' fs]

end

mutual

theorem Query.symbols_map (g : α → List β) : ∀ f : Query α,
    (f.map g).symbols = f.symbols.flatMap g
  | .and fs | .or fs => Queries.symbols_map g fs
  | .not f => Query.symbols_map g f
  | .item i => by
    simp only [Query.map, Query.symbols, i.parts_map, List.flatten_eq_flatMap,
      List.flatMap_map, List.flatMap_assoc, id]

theorem Queries.symbols_map (g : α → List β) : ∀ fs : Queries α,
    (fs.map g).symbols = fs.symbols.flatMap g
  | .one f => Query.symbols_map g f
  | .more f fs => by
    simp only [Queries.map, Queries.symbols, List.flatMap_append, Query.symbols_map g f,
      Queries.symbols_map g fs]

end

def weigh (w : σ → ℤ) (text : List σ) : ℤ := (text.map w).sum

theorem weigh_add (w w' : σ → ℤ) (text : List σ) :
    weigh (fun a => w a + w' a) text = weigh w text + weigh w' text := List.sum_map_add

theorem length_flatMap (f : α → List σ) (l : List α) :
    ((l.flatMap f).length : ℤ) = weigh (fun a => ((f a).length : ℤ)) l := by
  induction l with
  | nil => rfl
  | cons a l ih =>
    rw [List.flatMap_cons, List.length_append, weigh, List.map_cons, List.sum_cons]
    push_cast
    rw [ih, weigh]

section
variable {w : σ → ℤ}

theorem weigh_nil : weigh w [] = 0 := rfl

theorem weigh_cons (a : σ) (text : List σ) : weigh w (a :: text) = w a + weigh w text := by
  rw [weigh, List.map_cons, List.sum_cons, weigh]

theorem weigh_append (text text' : List σ) :
    weigh w (text ++ text') = weigh w text + weigh w text' := by
  rw [weigh, List.map_append, List.sum_append, weigh, weigh]

theorem weigh_flatMap (f : α → List σ) (l : List α) :
    weigh w (l.flatMap f) = weigh (fun a => weigh w (f a)) l := by
  induction l with
  | nil => rfl
  | cons a l ih => rw [List.flatMap_cons, weigh_append, weigh_cons, ih]

variable (write : α → List σ) (embed : Char → σ)

theorem weigh_starred : ∀ parts : List (List α),
    weigh w (starred write embed parts) = weigh w (starred (fun _ : α => []) embed parts) +
      weigh (fun a => weigh w (write a)) parts.flatten
  | [] => rfl
  | [v] => by
    have empty : v.flatMap (fun _ => ([] : List σ)) = [] :=
      List.flatMap_eq_nil_iff.mpr fun _ _ => rfl
    simp only [starred, weigh_flatMap, empty, weigh_nil, List.flatten_cons, List.flatten_nil,
      List.append_nil, zero_add]
  | v :: v' :: parts => by
    have empty : v.flatMap (fun _ => ([] : List σ)) = [] :=
      List.flatMap_eq_nil_iff.mpr fun _ _ => rfl
    rw [starred, starred, weigh_append, weigh_cons, weigh_starred (v' :: parts), empty,
      List.nil_append, weigh_cons, weigh_flatMap]
    simp only [List.flatten_cons, weigh_append]
    ring

mutual

/-- The weight of a text is that of its symbols and that of the text without them. -/
theorem Query.weigh_text : ∀ f : Query α,
    weigh w (f.text write embed) = weigh w (f.text (fun _ => []) embed) +
      weigh (fun a => weigh w (write a)) f.symbols
  | .and fs | .or fs => by
    simp only [Query.text, weigh_cons, weigh_append, Queries.weigh_text fs, Query.symbols]
    ring
  | .not f => by
    simp only [Query.text, weigh_cons, weigh_append, Query.weigh_text f, Query.symbols]
    ring
  | .item i => by
    simp only [Query.text, Item.text, weigh_cons, weigh_append, Query.symbols]
    rw [weigh_starred write]
    ring

theorem Queries.weigh_text : ∀ fs : Queries α,
    weigh w (fs.text write embed) = weigh w (fs.text (fun _ => []) embed) +
      weigh (fun a => weigh w (write a)) fs.symbols
  | .one f => Query.weigh_text f
  | .more f fs => by
    simp only [Queries.text, weigh_append, Query.weigh_text f, Queries.weigh_text fs,
      Queries.symbols]
    ring

end

end

theorem skeleton_eq {g : α → List σ} {g' : β → List σ} {f : Query α} {f' : Query β}
    (same : f.map g = f'.map g') (embed : Char → τ) :
    f.text (fun _ => []) embed = f'.text (fun _ => []) embed := by
  have empty : ∀ l : List σ, l.flatMap (fun _ => ([] : List τ)) = [] :=
    fun l => List.flatMap_eq_nil_iff.mpr fun _ _ => rfl
  have texts := congrArg (Query.text (fun _ => ([] : List τ)) embed) same
  simp only [Query.text_map, empty] at texts
  exact texts

def isHeadChar (c : Char) : Bool := isKeyChar c || c ∈ [';', '.', ':', '~', '>', '<']

theorem isHeadChar_of_key {c : Char} (key : isKeyChar c) : isHeadChar c := by
  rw [isHeadChar, key, Bool.true_or]

theorem isKeyChar_of_digit {c : Char} (digit : c.isDigit) : isKeyChar c := by
  rw [isKeyChar, Char.isAlphanum, digit, Bool.or_true, Bool.true_or]

theorem isKeyChar_of_alpha {c : Char} (alpha : c.isAlpha) : isKeyChar c := by
  rw [isKeyChar, Char.isAlphanum, alpha, Bool.true_or, Bool.true_or]

/-- A text of characters that only stand before an equals sign -/
def OfHead (text : List Char) : Prop := text ≠ [] ∧ ∀ c ∈ text, isHeadChar c

theorem ofHead_number {text : List Char} (number : isNumber text) : OfHead text := by
  cases text with
  | nil => cases number
  | cons c text =>
    simp only [isNumber, Bool.and_eq_true, List.all_eq_true] at number
    exact ⟨List.cons_ne_nil c text, fun d mem =>
      isHeadChar_of_key (isKeyChar_of_digit (number.1 d mem))⟩

theorem OfHead.append {text : List Char} (ofHead : OfHead text) {text' : List Char}
    (chars : ∀ c ∈ text', isHeadChar c) : OfHead (text ++ text') := by
  refine ⟨List.append_ne_nil_of_left_ne_nil ofHead.1 text', fun c mem => ?_⟩
  rcases List.mem_append.mp mem with left | right
  · exact ofHead.2 c left
  · exact chars c right

theorem ofHead_oid {text : List Char} (oid : IsOid text) : OfHead text := by
  rcases oid with descriptor | ⟨number, numbers, first, _, all, rfl⟩
  · cases text with
    | nil => cases descriptor
    | cons c text =>
      simp only [isDescriptor, Bool.and_eq_true, List.all_eq_true] at descriptor
      refine ⟨List.cons_ne_nil c text, fun d mem => ?_⟩
      rcases List.mem_cons.mp mem with rfl | mem
      · exact isHeadChar_of_key (isKeyChar_of_alpha descriptor.1)
      · exact isHeadChar_of_key (descriptor.2 d mem)
  · refine (ofHead_number first).append fun c mem => ?_
    obtain ⟨n, some, mem⟩ := List.mem_flatMap.mp mem
    rcases List.mem_cons.mp mem with rfl | mem
    · rfl
    · exact (ofHead_number (all n some)).2 c mem

theorem ofHead_attribute {text : List Char} (attr : IsAttribute text) : OfHead text := by
  obtain ⟨oid, options, named, all, rfl⟩ := attr
  refine (ofHead_oid named).append fun c mem => ?_
  obtain ⟨o, some, mem⟩ := List.mem_flatMap.mp mem
  rcases List.mem_cons.mp mem with rfl | mem
  · rfl
  · exact isHeadChar_of_key (List.all_eq_true.mp (all o some).2 c mem)

theorem ofHead_dnAttrs : ∀ text ∈ dnAttrs, ∀ c ∈ text, isHeadChar c := by
  have all : ∀ c ∈ dnAttrs.flatten, isHeadChar c := List.all_eq_true.mp (by decide)
  exact fun text listed c mem => all c (List.mem_flatten.mpr ⟨text, listed, mem⟩)

theorem ofHead_marks : ∀ text ∈ marks, ∀ c ∈ text, isHeadChar c := by
  have all : ∀ c ∈ marks.flatten, isHeadChar c := List.all_eq_true.mp (by decide)
  exact fun text listed c mem => all c (List.mem_flatten.mpr ⟨text, listed, mem⟩)

theorem ofHead_head {text : List Char} (valid : IsHead text) : OfHead text := by
  have colon : ∀ c ∈ [':'], isHeadChar c := List.all_eq_true.mp (by decide)
  cases valid with
  | simple valid known =>
    exact (ofHead_attribute valid).append (ofHead_marks _ known)
  | extensible valid known =>
    exact ((ofHead_attribute valid).append (ofHead_dnAttrs _ known)).append colon
  | @extensibleBy attr dn rule valid known named =>
    have ruled : ∀ c ∈ ':' :: rule, isHeadChar c := by
      intro c mem
      rcases List.mem_cons.mp mem with rfl | mem
      · rfl
      · exact (ofHead_oid named).2 c mem
    have before : ∀ c ∈ attr ++ dn, isHeadChar c := by
      intro c mem
      rcases List.mem_append.mp mem with left | right
      · rcases valid with rfl | valid
        · cases left
        · exact (ofHead_attribute valid).2 c left
      · exact ofHead_dnAttrs _ known c right
    refine ⟨List.append_ne_nil_of_right_ne_nil _ (List.cons_ne_nil _ _), fun c mem => ?_⟩
    rcases List.mem_append.mp mem with mem | last
    · rcases List.mem_append.mp mem with left | right
      · exact before c left
      · exact ruled c right
    · exact colon c last

theorem ofHead_item (i : Item α) : OfHead i.head := by
  cases i with
  | value head v => exact ofHead_head head.valid
  | present attr => exact ofHead_attribute attr.valid
  | substrings attr initial any final => exact ofHead_attribute attr.valid

/-- A value ends here. -/
def Stop (text : List Char) : Prop := ∃ rest, text = ')' :: rest ∨ text = '*' :: rest

theorem hexDigits_normal : ∀ c ∈ hexDigits, isNormal c ∧ c.utf8Size = 1 :=
  List.all_iff_forall_prop.mp (by decide)

theorem Letter.text_inj {a b : Letter} {x y : List Char} (same : a.text ++ x = b.text ++ y) :
    a = b ∧ x = y := by
  cases a with
  | normal c ok =>
    cases b with
    | normal d ok' =>
      obtain ⟨rfl, rest⟩ := List.cons.inj same
      exact ⟨rfl, rest⟩
    | escaped high low hexHigh hexLow =>
      obtain ⟨rfl, _⟩ := List.cons.inj same
      cases ok
  | escaped high low hexHigh hexLow =>
    cases b with
    | normal d ok' =>
      obtain ⟨rfl, _⟩ := List.cons.inj same
      cases ok'
    | escaped high' low' hexHigh' hexLow' =>
      simp only [text, List.cons_append, List.nil_append, List.cons.injEq, true_and] at same
      obtain ⟨rfl, rfl, rest⟩ := same
      exact ⟨rfl, rest⟩

theorem Letter.text_ne_stop {a : Letter} {x y : List Char} (stop : Stop y) :
    a.text ++ x ≠ y := by
  rintro rfl
  obtain ⟨rest, stop | stop⟩ := stop
  all_goals
    cases a with
    | normal c ok =>
      obtain ⟨rfl, _⟩ := List.cons.inj stop
      cases ok
    | escaped high low hexHigh hexLow => cases stop

theorem value_inj : ∀ {v v' : List Letter} {x y : List Char}, Stop x → Stop y →
    v.flatMap Letter.text ++ x = v'.flatMap Letter.text ++ y → v = v' ∧ x = y
  | [], [], _, _, _, _, same => ⟨rfl, same⟩
  | [], b :: v', x, y, stop, _, same => by
    rw [List.flatMap_cons, List.append_assoc] at same
    exact absurd same.symm (Letter.text_ne_stop stop)
  | a :: v, [], x, y, _, stop, same => by
    rw [List.flatMap_cons, List.append_assoc] at same
    exact absurd same (Letter.text_ne_stop stop)
  | a :: v, b :: v', x, y, stopX, stopY, same => by
    simp only [List.flatMap_cons, List.append_assoc] at same
    obtain ⟨rfl, rest⟩ := Letter.text_inj same
    obtain ⟨rfl, ends⟩ := value_inj stopX stopY rest
    exact ⟨rfl, ends⟩

theorem starred_inj : ∀ {parts parts' : List (List Letter)} {x y : List Char}, parts ≠ [] →
    parts' ≠ [] → starred Letter.text id parts ++ ')' :: x =
      starred Letter.text id parts' ++ ')' :: y → parts = parts' ∧ x = y
  | [v], [v'], x, y, _, _, same => by
    obtain ⟨rfl, rest⟩ := value_inj ⟨x, .inl rfl⟩ ⟨y, .inl rfl⟩ same
    exact ⟨rfl, (List.cons.inj rest).2⟩
  | [v], v' :: w' :: parts', x, y, _, _, same => by
    rw [starred, starred, List.append_assoc] at same
    obtain ⟨_, rest⟩ := value_inj ⟨x, .inl rfl⟩ ⟨_, .inr rfl⟩ same
    cases rest
  | v :: w :: parts, [v'], x, y, _, _, same => by
    rw [starred, starred, List.append_assoc] at same
    obtain ⟨_, rest⟩ := value_inj ⟨_, .inr rfl⟩ ⟨y, .inl rfl⟩ same
    cases rest
  | v :: w :: parts, v' :: w' :: parts', x, y, _, _, same => by
    rw [starred, starred, List.append_assoc, List.append_assoc] at same
    obtain ⟨rfl, rest⟩ := value_inj ⟨_, .inr rfl⟩ ⟨_, .inr rfl⟩ same
    obtain ⟨parts, rest⟩ := starred_inj (List.cons_ne_nil w parts) (List.cons_ne_nil w' parts')
      (List.cons.inj rest).2
    exact ⟨congrArg (v :: ·) parts, rest⟩

theorem Item.parts_ne_nil (i : Item α) : i.parts ≠ [] := by
  cases i <;> exact List.cons_ne_nil _ _

theorem Item.eq_of_parts {i j : Item α} (properI : i.Proper) (properJ : j.Proper)
    (heads : i.head = j.head) (parts : i.parts = j.parts) : i = j := by
  cases i with
  | value head v =>
    cases j with
    | value head' v' =>
      obtain ⟨text, valid⟩ := head
      obtain ⟨text', valid'⟩ := head'
      obtain rfl : text = text' := heads
      rw [(List.cons.inj parts).1]
    | present attr => cases parts
    | substrings attr initial any final =>
      have length := congrArg List.length parts
      simp [Item.parts] at length
  | present attr =>
    obtain ⟨text, valid⟩ := attr
    cases j with
    | value head v => cases parts
    | present attr' =>
      obtain ⟨text', valid'⟩ := attr'
      obtain rfl : text = text' := heads
      rfl
    | substrings attr' initial any final =>
      cases any with
      | nil =>
        simp only [Item.parts, List.nil_append, List.cons.injEq, and_true] at parts
        exact absurd ⟨parts.1.symm, rfl, parts.2.symm⟩ properJ
      | cons v any =>
        have length := congrArg List.length parts
        simp [Item.parts] at length
  | substrings attr initial any final =>
    obtain ⟨text, valid⟩ := attr
    cases j with
    | value head v =>
      have length := congrArg List.length parts
      simp [Item.parts] at length
    | present attr' =>
      cases any with
      | nil =>
        simp only [Item.parts, List.nil_append, List.cons.injEq, and_true] at parts
        exact absurd ⟨parts.1, rfl, parts.2⟩ properI
      | cons v any =>
        have length := congrArg List.length parts
        simp [Item.parts] at length
    | substrings attr' initial' any' final' =>
      obtain ⟨text', valid'⟩ := attr'
      obtain rfl : text = text' := heads
      obtain ⟨rfl, rest⟩ := List.cons.inj parts
      obtain ⟨rfl, last⟩ := List.append_inj' rest rfl
      rw [(List.cons.inj last).1]

theorem head_inj : ∀ {head head' x y : List Char}, '=' ∉ head → '=' ∉ head' →
    head ++ '=' :: x = head' ++ '=' :: y → head = head' ∧ x = y
  | [], [], x, y, _, _, same => ⟨rfl, (List.cons.inj same).2⟩
  | [], c :: head', x, y, _, without, same => by
    obtain ⟨rfl, _⟩ := List.cons.inj same
    exact absurd List.mem_cons_self without
  | c :: head, [], x, y, without, _, same => by
    obtain ⟨rfl, _⟩ := List.cons.inj same
    exact absurd List.mem_cons_self without
  | c :: head, d :: head', x, y, without, without', same => by
    obtain ⟨rfl, tails⟩ := List.cons.inj same
    obtain ⟨rfl, rest⟩ := head_inj (fun mem => without (List.mem_cons_of_mem c mem))
      (fun mem => without' (List.mem_cons_of_mem c mem)) tails
    exact ⟨rfl, rest⟩

theorem Item.text_inj {i j : Item Letter} {x y : List Char} (properI : i.Proper)
    (properJ : j.Proper)
    (same : i.text Letter.text id ++ ')' :: x = j.text Letter.text id ++ ')' :: y) :
    i = j ∧ x = y := by
  have equals : ∀ k : Item Letter, '=' ∉ k.head := by
    intro k mem
    have char := (ofHead_item k).2 '=' mem
    cases char
  simp only [Item.text, List.map_id, List.append_assoc, List.cons_append, id] at same
  obtain ⟨heads, values⟩ := head_inj (equals i) (equals j) same
  obtain ⟨parts, rest⟩ := starred_inj i.parts_ne_nil j.parts_ne_nil values
  exact ⟨Item.eq_of_parts properI properJ heads parts, rest⟩

theorem Item.text_start (i : Item Letter) :
    ∃ c rest, i.text Letter.text id = c :: rest ∧ isHeadChar c := by
  obtain ⟨nonempty, chars⟩ := ofHead_item i
  obtain ⟨c, rest, starts⟩ := List.exists_cons_of_ne_nil nonempty
  refine ⟨c, rest ++ '=' :: starred Letter.text id i.parts, ?_, chars c ?_⟩
  · rw [Item.text, List.map_id, starts]
    rfl
  · rw [starts]
    exact List.mem_cons_self

/-- The first character of a filter after the parenthesis, if it is an operator -/
def Query.operator : Query α → Option Char
  | .and _ => some '&'
  | .or _ => some '|'
  | .not _ => some '!'
  | .item _ => none

theorem Query.text_start : ∀ f : Query Letter, ∃ c rest,
    f.text Letter.text id = '(' :: c :: rest ∧
      f.operator = if isHeadChar c then none else some c
  | .and fs => ⟨'&', _, rfl, rfl⟩
  | .or fs => ⟨'|', _, rfl, rfl⟩
  | .not f => ⟨'!', _, rfl, rfl⟩
  | .item i => by
    obtain ⟨c, rest, text, char⟩ := i.text_start
    refine ⟨c, rest ++ [')'], ?_, ?_⟩
    · rw [Query.text, text]
      rfl
    · rw [if_pos char]
      rfl

theorem Query.operator_eq {f g : Query Letter} {x y : List Char}
    (same : f.text Letter.text id ++ x = g.text Letter.text id ++ y) : f.operator = g.operator := by
  obtain ⟨c, rest, textF, operatorF⟩ := f.text_start
  obtain ⟨d, rest', textG, operatorG⟩ := g.text_start
  rw [textF, textG] at same
  obtain ⟨rfl, _⟩ := List.cons.inj (List.cons.inj same).2
  rw [operatorF, operatorG]

theorem Queries.text_start : ∀ fs : Queries Letter, ∃ rest,
    fs.text Letter.text id = '(' :: rest
  | .one f => by
    obtain ⟨c, rest, text, _⟩ := f.text_start
    exact ⟨_, text⟩
  | .more f fs => by
    obtain ⟨c, rest, text, _⟩ := f.text_start
    refine ⟨c :: rest ++ fs.text Letter.text id, ?_⟩
    rw [Queries.text, text]
    rfl

mutual

/-- A filter is determined by its text, and ends where its text ends. -/
theorem Query.text_inj : ∀ {f g : Query Letter} {x y : List Char}, f.Proper → g.Proper →
    f.text Letter.text id ++ x = g.text Letter.text id ++ y → f = g ∧ x = y
  | .and fs, .and gs, x, y, properF, properG, same => by
    simp only [Query.text, List.cons_append, List.append_assoc, List.cons.injEq, true_and] at same
    obtain ⟨rfl, rest⟩ := Queries.text_inj (x := ')' :: x) (y := ')' :: y) properF properG
      nofun nofun same
    exact ⟨rfl, (List.cons.inj rest).2⟩
  | .or fs, .or gs, x, y, properF, properG, same => by
    simp only [Query.text, List.cons_append, List.append_assoc, List.cons.injEq, true_and] at same
    obtain ⟨rfl, rest⟩ := Queries.text_inj (x := ')' :: x) (y := ')' :: y) properF properG
      nofun nofun same
    exact ⟨rfl, (List.cons.inj rest).2⟩
  | .not f, .not g, x, y, properF, properG, same => by
    simp only [Query.text, List.cons_append, List.append_assoc, List.cons.injEq, true_and] at same
    obtain ⟨rfl, rest⟩ := Query.text_inj (f := f) (g := g) properF properG same
    exact ⟨rfl, (List.cons.inj rest).2⟩
  | .item i, .item j, x, y, properF, properG, same => by
    simp only [Query.text, List.cons_append, List.append_assoc, List.cons.injEq, true_and] at same
    obtain ⟨rfl, rest⟩ := Item.text_inj properF properG same
    exact ⟨rfl, rest⟩
  | .and fs, .or _, _, _, _, _, same | .and fs, .not _, _, _, _, _, same
  | .and fs, .item _, _, _, _, _, same | .or fs, .and _, _, _, _, _, same
  | .or fs, .not _, _, _, _, _, same | .or fs, .item _, _, _, _, _, same => by
    cases Query.operator_eq same
  | .not f, .and _, _, _, _, _, same | .not f, .or _, _, _, _, _, same
  | .not f, .item _, _, _, _, _, same => by cases Query.operator_eq same
  | .item i, .and _, _, _, _, _, same | .item i, .or _, _, _, _, _, same
  | .item i, .not _, _, _, _, _, same => by cases Query.operator_eq same

theorem Queries.text_inj : ∀ {fs gs : Queries Letter} {x y : List Char}, fs.Proper → gs.Proper →
    x.head? ≠ some '(' → y.head? ≠ some '(' →
    fs.text Letter.text id ++ x = gs.text Letter.text id ++ y → fs = gs ∧ x = y
  | .one f, .one g, x, y, properF, properG, _, _, same => by
    obtain ⟨rfl, rest⟩ := Query.text_inj properF properG same
    exact ⟨rfl, rest⟩
  | .one f, .more g gs, x, y, properF, properG, endX, _, same => by
    rw [Queries.text, Queries.text, List.append_assoc] at same
    obtain ⟨_, rfl⟩ := Query.text_inj properF properG.1 same
    obtain ⟨rest, text⟩ := gs.text_start
    rw [text] at endX
    exact absurd rfl endX
  | .more f fs, .one g, x, y, properF, properG, _, endY, same => by
    rw [Queries.text, Queries.text, List.append_assoc] at same
    obtain ⟨_, rest⟩ := Query.text_inj properF.1 properG same
    obtain ⟨rest', text⟩ := fs.text_start
    rw [← rest, text] at endY
    exact absurd rfl endY
  | .more f fs, .more g gs, x, y, properF, properG, endX, endY, same => by
    rw [Queries.text, Queries.text, List.append_assoc, List.append_assoc] at same
    obtain ⟨rfl, tails⟩ := Query.text_inj properF.1 properG.1 same
    obtain ⟨rfl, rest⟩ := Queries.text_inj properF.2 properG.2 endX endY tails
    exact ⟨rfl, rest⟩

end

/-- No text is read in two ways. -/
theorem ReadAs.unique {text : List Char} {tree tree' : Query UInt8} (reads : ReadAs text tree)
    (reads' : ReadAs text tree') : tree = tree' := by
  obtain ⟨s, proper, same, rfl⟩ := reads
  obtain ⟨s', proper', same', rfl⟩ := reads'
  have texts : s.text Letter.text id ++ [] = s'.text Letter.text id ++ [] := by
    rw [same, same']
  rw [(Query.text_inj proper proper' texts).1]

/-- Templates have holes among their symbols. -/
def templateText : Option Letter → List (Option Char)
  | none => [none]
  | some a => a.text.map some

def fill (name : List Char) : Option Char → List Char
  | none => name
  | some c => [c]

def fillText (name : List Char) : Option Letter → List Char
  | none => name
  | some a => a.text

def fillOctets (name : List Char) : Option Letter → List UInt8
  | none => name.flatMap String.utf8EncodeChar
  | some a => a.octets

/-- The symbols of a name without special characters -/
def fillSymbols (name : List Char) (clean : ∀ c ∈ name, isNormal c) : Option Letter → List Letter
  | none => name.pmap Letter.normal clean
  | some a => [a]

variable {name : List Char}

theorem flatMap_templateText (a : Option Letter) :
    (templateText a).flatMap (fill name) = fillText name a := by
  cases a with
  | none => exact List.append_nil name
  | some a =>
    rw [templateText, List.flatMap_map]
    exact List.flatMap_singleton' a.text

theorem filled_text (t : Query (Option Letter)) :
    (t.text templateText some).flatMap (fill name) = t.text (fillText name) id := by
  have texts := @Query.flatMap_text _ _ _ templateText some (fill name) id (fun c => rfl) t
  simp only [flatMap_templateText] at texts
  exact texts

theorem flatMap_pmap_normal {f : Letter → List σ} {g : Char → List σ}
    (agree : ∀ c ok, f (.normal c ok) = g c) : ∀ (name : List Char)
    (clean : ∀ c ∈ name, isNormal c), (name.pmap Letter.normal clean).flatMap f = name.flatMap g
  | [], _ => rfl
  | c :: name, clean => by
    rw [List.pmap_cons, List.flatMap_cons, List.flatMap_cons, agree,
      flatMap_pmap_normal agree name]

theorem fillSymbols_text (clean : ∀ c ∈ name, isNormal c) (a : Option Letter) :
    (fillSymbols name clean a).flatMap Letter.text = fillText name a := by
  cases a with
  | none =>
    rw [fillSymbols, flatMap_pmap_normal (g := fun c => [c]) fun c ok => rfl]
    exact List.flatMap_singleton' name
  | some a => exact List.append_nil a.text

theorem fillSymbols_octets (clean : ∀ c ∈ name, isNormal c) (a : Option Letter) :
    (fillSymbols name clean a).flatMap Letter.octets = fillOctets name a := by
  cases a with
  | none => exact flatMap_pmap_normal (fun c ok => rfl) name clean
  | some a => exact List.append_nil a.octets

theorem Letter.octets_ne_nil (a : Letter) : a.octets ≠ [] := by
  cases a with
  | normal c ok => exact String.utf8EncodeChar_ne_nil
  | escaped high low hexHigh hexLow => exact List.cons_ne_nil _ _

/-- What the octets of a text would weigh, less two for each special character. -/
def octetWeight (c : Char) : ℤ := c.utf8Size - if isNormal c then 0 else 2

theorem weigh_symbol (a : Letter) : weigh octetWeight a.text = a.octets.length := by
  cases a with
  | normal c ok =>
    rw [Letter.text, Letter.octets, String.length_utf8EncodeChar, weigh_cons, weigh_nil,
      octetWeight, if_pos ok]
    ring
  | escaped high low hexHigh hexLow =>
    obtain ⟨normalHigh, sizeHigh⟩ := hexDigits_normal high hexHigh
    obtain ⟨normalLow, sizeLow⟩ := hexDigits_normal low hexLow
    have slash : octetWeight '\\' = -1 := by decide
    simp only [Letter.text, Letter.octets, weigh_cons, weigh_nil, slash]
    rw [octetWeight, octetWeight, if_pos normalHigh, if_pos normalLow, sizeHigh, sizeLow]
    rfl

/-- The number of special characters, twice -/
def excess (name : List Char) : Option Letter → ℤ
  | none => 2 * (name.countP fun c => !isNormal c)
  | some _ => 0

theorem excess_nonneg (a : Option Letter) : 0 ≤ excess name a := by
  cases a with
  | none => exact Int.mul_nonneg (by decide) (Int.natCast_nonneg _)
  | some a => exact le_refl 0

theorem weigh_fill (a : Option Letter) :
    ((fillOctets name a).length : ℤ) = weigh octetWeight (fillText name a) + excess name a := by
  cases a with
  | some a => rw [fillText, weigh_symbol, excess, add_zero, fillOctets]
  | none =>
    simp only [fillOctets, fillText, excess]
    induction name with
    | nil => rfl
    | cons c name ih =>
      rw [List.flatMap_cons, List.length_append, String.length_utf8EncodeChar, weigh_cons,
        octetWeight, List.countP_cons]
      push_cast
      rw [ih]
      cases isNormal c <;> simp <;> ring

/-- Special characters in the name would leave fewer octets than the filled tree has. -/
theorem clean_of_reads {t : Query (Option Letter)} (hole : none ∈ t.symbols)
    (reads : ReadAs (t.text (fillText name) id) (t.map (fillOctets name))) :
    ∀ c ∈ name, isNormal c := by
  obtain ⟨s, _, text, tree⟩ := reads
  have weights := congrArg (weigh octetWeight) text
  rw [Query.weigh_text, Query.weigh_text (fillText name), skeleton_eq tree id] at weights
  have lengths := congrArg (fun f : Query UInt8 => (f.symbols.length : ℤ)) tree
  simp only [Query.symbols_map, length_flatMap, weigh_fill, weigh_add] at lengths
  simp only [weigh_symbol] at weights
  have none_left : weigh (excess name) t.symbols = 0 := by linarith
  have special : excess name none ≤ 0 := by
    rw [← none_left]
    refine List.single_le_sum ?_ _ (List.mem_map.mpr ⟨none, hole, rfl⟩)
    intro n mem
    obtain ⟨a, _, rfl⟩ := List.mem_map.mp mem
    exact excess_nonneg a
  have count : name.countP (fun c => !isNormal c) = 0 := by
    simp only [excess] at special
    omega
  intro c mem
  have clean := List.countP_eq_zero.mp count c mem
  simpa using clean

theorem fillOctets_ne_nil (filled : name ≠ []) (a : Option Letter) : fillOctets name a ≠ [] := by
  cases a with
  | none =>
    obtain ⟨c, rest, rfl⟩ := List.exists_cons_of_ne_nil filled
    exact List.append_ne_nil_of_left_ne_nil String.utf8EncodeChar_ne_nil _
  | some a => exact a.octets_ne_nil

/-- A filled template is read as the filled tree exactly if the name has no special characters
and is not missed. -/
theorem reads_fill_iff {t : Query (Option Letter)} (proper : t.Proper) (hole : none ∈ t.symbols) :
    ReadAs ((t.text templateText some).flatMap (fill name)) (t.map (fillOctets name)) ↔
      (∀ c ∈ name, isNormal c) ∧ (name = [] → (t.map (fillOctets [])).Proper) := by
  rw [filled_text]
  constructor
  · intro reads
    refine ⟨clean_of_reads hole reads, ?_⟩
    rintro rfl
    obtain ⟨s, proper, _, tree⟩ := reads
    rw [← tree]
    exact (Query.proper_map Letter.octets_ne_nil s).mpr proper
  · rintro ⟨clean, present⟩
    have octets : (t.map (fillSymbols name clean)).map Letter.octets =
        t.map (fillOctets name) := by
      simp only [Query.map_map, fillSymbols_octets]
    refine ⟨t.map (fillSymbols name clean), ?_, ?_, octets⟩
    · rw [← Query.proper_map Letter.octets_ne_nil, octets]
      by_cases empty : name = []
      · subst empty
        exact present rfl
      · exact (Query.proper_map (fillOctets_ne_nil empty) t).mpr proper
    · simp only [Query.text_map, fillSymbols_text]

end WgPortal.Library.LdapFilter
