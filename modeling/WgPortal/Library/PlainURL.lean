import WgPortal.Library.Origin

/-! How `url.Parse` reads a URL that has no query, no fragment and nothing that is escaped. -/

namespace WgPortal.Library.NetURL

variable {text rest host path : List UInt8}

/-- A text of a scheme, a host and a path only. -/
structure Plain (text : List UInt8) : Prop where
  control : ∀ c ∈ text, isControl c = false
  query : '?'.toUInt8 ∉ text
  fragment : '#'.toUInt8 ∉ text
  star : text ≠ ascii "*"

theorem cutQuery_of_not_mem (plain : '?'.toUInt8 ∉ rest) : cutQuery rest = (rest, false, []) := by
  have other : rest.getLast? ≠ some '?'.toUInt8 := fun last =>
    plain (List.mem_of_getLast? last)
  rw [cutQuery, decide_eq_false other, Bool.false_and, if_neg Bool.false_ne_true,
    before_eq_self plain, after_eq_nil plain]

theorem parse_plain (plain : Plain text) :
    parse text = (getScheme text).bind fun parts =>
      URL.setHierarchy { scheme := parts.1.map lower } parts.2 := by
  have control : text.any isControl = false := by
    rw [List.any_eq_false]
    exact fun c member => by rw [plain.control c member]; exact Bool.false_ne_true
  have whole : parse text = parseReference text := by
    rw [parse, before_eq_self plain.fragment, after_eq_nil plain.fragment]
    cases parseReference text <;> rfl
  rw [whole, parseReference, control, if_neg Bool.false_ne_true, if_neg plain.star]
  cases found : getScheme text with
  | none => rfl
  | some parts =>
    have query : '?'.toUInt8 ∉ parts.2 := by
      rcases getScheme_cases found with ⟨_, same⟩ | ⟨_, same⟩
      · rw [same]
        exact plain.query
      · intro member
        rw [same] at plain
        exact plain.query (List.mem_append_right _ (List.mem_cons_of_mem _ member))
    simp only [Option.bind_eq_bind, Option.bind_some, cutQuery_of_not_mem query]

theorem setPath_plain (u : URL) (kept : ∀ c ∈ path, passes .path c = true) :
    ∃ v, u.setPath path = some v ∧ v.scheme = u.scheme ∧ v.host = u.host := by
  rw [URL.setPath, unescape_eq_self kept]
  exact ⟨_, rfl, rfl, rfl⟩

/-- An authority between the slashes and the path. -/
theorem setHierarchy_authority {u : URL} (named : u.scheme ≠ [])
    (read : parseAuthority host = some (none, host)) (single : '/'.toUInt8 ∉ host)
    (rooted : path = [] ∨ path.head? = some '/'.toUInt8)
    (kept : ∀ c ∈ path, passes .path c = true) :
    ∃ v, u.setHierarchy (ascii "//" ++ (host ++ path)) = some v ∧ v.scheme = u.scheme ∧
      v.host = host := by
  have first : before '/'.toUInt8 (host ++ path) = host := takeWhile_ne_append single rooted
  have second : (host ++ path).dropWhile (· ≠ '/'.toUInt8) = path :=
    dropWhile_ne_append single rooted
  have behind : (ascii "//" ++ (host ++ path)).drop 2 = host ++ path := rfl
  have slash : (ascii "//" ++ (host ++ path)).head? = some '/'.toUInt8 := rfl
  rw [URL.setHierarchy, if_neg (not_not.mpr slash), if_pos ⟨List.prefix_append .., .inl named⟩,
    behind, first, second, read]
  exact setPath_plain { u with user := none, host := host } kept

theorem parseAuthority_plain (noUser : '@'.toUInt8 ∉ host) (read : parseHost host = some host) :
    parseAuthority host = some (none, host) := by
  rw [parseAuthority, if_pos noUser, read]
  rfl

/-- A name, and a port of digits if there is one. -/
theorem parseHost_name {name port : List UInt8} (kept : ∀ c ∈ name, passes .host c = true)
    (plain : ∀ c ∈ name, c ≠ '['.toUInt8 ∧ c ≠ ':'.toUInt8) (named : name ≠ [])
    (digits : ∀ c ∈ port, isDigit c = true) :
    parseHost name = some name ∧
      parseHost (name ++ ':'.toUInt8 :: port) = some (name ++ ':'.toUInt8 :: port) := by
  obtain ⟨first, others, rfl⟩ := List.exists_cons_of_ne_nil named
  have bracket : first ≠ '['.toUInt8 := (plain first List.mem_cons_self).1
  have colon : ':'.toUInt8 ∉ first :: others := fun member => (plain _ member).2 rfl
  have digit : ∀ c : UInt8, isDigit c = true → passes .host c = true ∧ c ≠ ':'.toUInt8 :=
    forall_byte (by decide +kernel)
  have noColon : ':'.toUInt8 ∉ port := fun member => (digit _ (digits _ member)).2 rfl
  have all : port.all isDigit = true := List.all_eq_true.mpr digits
  have keptPort : ∀ c ∈ (first :: others) ++ ':'.toUInt8 :: port, passes .host c = true := by
    intro c member
    rcases List.mem_append.mp member with member | member
    · exact kept c member
    · rcases List.mem_cons.mp member with rfl | member
      · decide
      · exact (digit c (digits c member)).1
  constructor
  · rw [parseHost, List.head?_cons, if_neg (by simpa using bracket), decide_eq_false colon,
      Bool.false_and, if_neg Bool.false_ne_true, unescape_eq_self kept]
  · rw [parseHost, List.cons_append, List.head?_cons, if_neg (by simpa using bracket),
      ← List.cons_append, afterLast_append _ noColon, all, Bool.not_true, Bool.and_false,
      if_neg Bool.false_ne_true, unescape_eq_self keptPort]

theorem breakAt_eq_none {sub : List UInt8} {c : UInt8} (start : sub.head? = some c)
    (absent : c ∉ text) : breakAt sub text = none := by
  obtain ⟨others, rfl⟩ := List.head?_eq_some_iff.mp start
  induction text with
  | nil => rfl
  | cons b text ih =>
    have other : ¬ c :: others <+: b :: text := by
      rintro ⟨tail, same⟩
      rw [List.cons_append, List.cons.injEq] at same
      exact absent (same.1 ▸ List.mem_cons_self)
    rw [breakAt, if_neg other, ih fun member => absent (List.mem_cons_of_mem b member)]
    rfl

/-- An address between brackets, and a port of digits if there is one. -/
theorem parseHost_brackets {address port : List UInt8}
    (kept : ∀ c ∈ address, passes .host c = true)
    (digits : validOptionalPort port = true) :
    parseHost ('['.toUInt8 :: address ++ ']'.toUInt8 :: port) =
      some ('['.toUInt8 :: address ++ ']'.toUInt8 :: port) := by
  have digit : ∀ c : UInt8, isDigit c = true → passes .host c = true ∧ c ≠ ']'.toUInt8 :=
    forall_byte (by decide +kernel)
  have portBytes : ∀ c ∈ port, passes .host c = true ∧ c ≠ ']'.toUInt8 := by
    intro c member
    cases port with
    | nil => cases member
    | cons colon port =>
      rw [validOptionalPort, Bool.and_eq_true, decide_eq_true_eq] at digits
      rcases List.mem_cons.mp member with rfl | member
      · rw [digits.1]
        decide
      · exact digit c (List.all_eq_true.mp digits.2 c member)
  have closed : ']'.toUInt8 ∉ port := fun member => (portBytes _ member).2 rfl
  have whole : ∀ c ∈ '['.toUInt8 :: address ++ ']'.toUInt8 :: port, passes .host c = true := by
    intro c member
    rcases List.mem_append.mp member with member | member
    · rcases List.mem_cons.mp member with rfl | member
      · decide
      · exact kept c member
    · rcases List.mem_cons.mp member with rfl | member
      · decide
      · exact (portBytes c member).1
  have bracket : ']'.toUInt8 ∈ '['.toUInt8 :: address ++ ']'.toUInt8 :: port :=
    List.mem_append_right _ List.mem_cons_self
  have plain : '%'.toUInt8 ∉
      beforeLast ']'.toUInt8 ('['.toUInt8 :: address ++ ']'.toUInt8 :: port) := by
    intro member
    have inside := whole _ (beforeLast_append_afterLast bracket ▸ List.mem_append_left _ member)
    exact absurd inside (by decide)
  rw [parseHost, List.cons_append, List.head?_cons, if_pos rfl, ← List.cons_append,
    if_neg (not_not.mpr bracket), afterLast_append _ closed, digits, if_neg (by decide),
    breakAt_eq_none (by decide) plain, unescape_eq_self whole]

/-- Without a scheme and a colon, all of the text is a path. -/
theorem setHierarchy_relative (rootless : rest.head? ≠ some '/'.toUInt8)
    (plain : ':'.toUInt8 ∉ before '/'.toUInt8 rest) (kept : ∀ c ∈ rest, passes .path c = true) :
    ∃ v, URL.setHierarchy {} rest = some v ∧ v.scheme = [] ∧ v.host = [] := by
  rw [URL.setHierarchy, if_pos rootless, if_neg (not_not.mpr rfl), if_neg plain]
  exact setPath_plain {} kept

/-- Without a scheme, a colon in the first segment is refused. -/
theorem setHierarchy_colon (rootless : rest.head? ≠ some '/'.toUInt8)
    (colon : ':'.toUInt8 ∈ before '/'.toUInt8 rest) : URL.setHierarchy {} rest = none := by
  rw [URL.setHierarchy, if_pos rootless, if_neg (not_not.mpr rfl), if_pos colon]

/-- Behind a scheme, what does not start with a slash has no host. -/
theorem setHierarchy_rootless {u : URL} (named : u.scheme ≠ [])
    (rootless : rest.head? ≠ some '/'.toUInt8) :
    u.setHierarchy rest = some { u with opaquePart := rest } := by
  rw [URL.setHierarchy, if_pos rootless, if_pos named]

theorem not_mem_of_validScheme {scheme : List UInt8} (valid : ValidScheme scheme) :
    ':'.toUInt8 ∉ scheme := fun member => absurd (valid.bytes _ member) (by decide)

/-- What is in front of the first colon is a scheme only if it can be one. -/
theorem getScheme_of_invalid {name rest : List UInt8} (named : name ≠ [])
    (plain : ':'.toUInt8 ∉ name) (invalid : ¬ ValidScheme name) :
    getScheme (name ++ ':'.toUInt8 :: rest) = some ([], name ++ ':'.toUInt8 :: rest) := by
  have other : (name ++ ':'.toUInt8 :: rest).head? ≠ some ':'.toUInt8 := by
    obtain ⟨first, others, rfl⟩ := List.exists_cons_of_ne_nil named
    intro head
    rw [List.cons_append, List.head?_cons, Option.some.injEq] at head
    exact plain (head ▸ List.mem_cons_self)
  obtain ⟨⟨scheme, tail⟩, found⟩ := Option.ne_none_iff_exists'.mp (getScheme_ne_none other)
  rcases getScheme_cases found with ⟨rfl, rfl⟩ | ⟨valid, same⟩
  · exact found
  · have equal := (append_cons_inj plain (not_mem_of_validScheme valid) same).1
    exact absurd (equal ▸ valid) invalid

end WgPortal.Library.NetURL
