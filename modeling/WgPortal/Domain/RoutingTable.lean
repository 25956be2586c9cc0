import WgPortal.Domain.Interface

/-! Whether the routes of an interface are managed, and in which table: two methods of the
interface, which read the same text by rules of their own. -/

namespace WgPortal.Domain

open Library.NetIP

namespace Interface

def manageRoutingTable (i : Interface) : Bool := i.routingTable.toLower ≠ "off"

end Interface

namespace RoutingTable

open Interface

/-- The text without differences of case -/
def lowered (s : String) : List Char := s.toLower.toList

theorem lowered_eq (s : String) : lowered s = s.toList.map Char.toLower := String.toList_map

/-- A decimal number, which may have a sign -/
def SpellsDecimal (s : String) (n : Int) : Prop := signedDecimal (lowered s) = some n

/-- A hexadecimal number, by its mark -/
def SpellsHex (s : String) (n : ℕ) : Prop := ∃ digits, lowered s = '0' :: 'x' :: digits ∧
  dropHexMarks digits ≠ [] ∧ ofDigits 16 hexVal (dropHexMarks digits) = some n

/-- The text is that of a table, or it says that there is none. -/
def Readable (s : String) : Prop :=
  lowered s = [] ∨ lowered s = "off".toList ∨
    (∃ n, SpellsDecimal s n ∧ 0 ≤ n ∧ n ≤ maxInt32) ∨ ∃ n, SpellsHex s n ∧ n ≤ maxInt32

/-- Both methods agree on what a table is, whatever the spelling of its number. -/
structure ReadConsistently (i : Interface) : Prop where
  range : i.getRoutingTable = -1 ∨ 0 ≤ i.getRoutingTable ∧ i.getRoutingTable ≤ maxInt32
  managed : i.manageRoutingTable = true ↔ i.getRoutingTable ≠ -1
  spelling : ∀ (j : Interface) (n : ℕ), SpellsDecimal i.routingTable n →
    SpellsHex j.routingTable n → j.getRoutingTable = i.getRoutingTable

variable {i : Interface}

theorem getRoutingTable_empty (empty : lowered i.routingTable = []) : i.getRoutingTable = 0 := by
  unfold lowered at empty
  simp only [getRoutingTable, empty]

theorem getRoutingTable_off (off : lowered i.routingTable = "off".toList) :
    i.getRoutingTable = -1 := by
  unfold lowered at off
  simp only [getRoutingTable, off]
  rfl

/-- Only a number that is too large is none. -/
def limited (n : Int) : Int := if maxInt32 < n then -1 else n

theorem limited_natCast (n : ℕ) : limited n = -1 ∨ limited n = n ∧ (n : Int) ≤ maxInt32 := by
  unfold limited
  split
  · exact .inl rfl
  · rename_i small
    exact .inr ⟨rfl, Int.not_lt.mp small⟩

theorem getRoutingTable_hex {digits : List Char}
    (hex : lowered i.routingTable = '0' :: 'x' :: digits) :
    i.getRoutingTable = if dropHexMarks digits = [] then -1
      else (ofDigits 16 hexVal (dropHexMarks digits)).elim (-1) fun n => limited n := by
  unfold lowered at hex
  simp only [getRoutingTable, hex, dropHexMarks]
  by_cases empty : dropHexMarks digits = []
  · simp only [empty, if_true]
  · simp only [empty, if_false]
    cases ofDigits 16 hexVal (dropHexMarks digits) <;> rfl

/-- A text that is neither empty nor off nor marked as hexadecimal -/
structure Plain (s : String) : Prop where
  notEmpty : lowered s ≠ []
  notOff : lowered s ≠ "off".toList
  notHex : ∀ digits, lowered s ≠ '0' :: 'x' :: digits

theorem getRoutingTable_plain (plain : Plain i.routingTable) : i.getRoutingTable =
    (signedDecimal (lowered i.routingTable)).elim (-1) fun n =>
      if n < -2 ^ 63 then -1 else limited n := by
  obtain ⟨notEmpty, notOff, notHex⟩ := plain
  unfold lowered at notEmpty notOff notHex ⊢
  unfold getRoutingTable
  split
  · rename_i empty
    exact absurd empty notEmpty
  · rename_i off
    exact absurd off notOff
  · rename_i digits hex
    exact absurd hex (notHex digits)
  · cases signedDecimal i.routingTable.toLower.toList with
    | none => rfl
    | some n =>
      simp only [Option.elim_some, limited]
      split_ifs <;> first | rfl | omega

theorem plain_of_decimal {s : String} {n : Int} (decimal : SpellsDecimal s n) : Plain s := by
  unfold SpellsDecimal at decimal
  refine ⟨fun empty => ?_, fun off => ?_, fun digits hex => ?_⟩
  · rw [empty] at decimal
    cases decimal
  · rw [off] at decimal
    cases decimal
  · rw [hex] at decimal
    simp [signedDecimal, ofDigits, List.foldlM_cons, digitVal] at decimal

theorem managed_iff : i.manageRoutingTable = true ↔ lowered i.routingTable ≠ "off".toList := by
  rw [manageRoutingTable, decide_eq_true_eq, lowered]
  exact not_congr String.toList_inj.symm

theorem getRoutingTable_of_decimal {n : Int} (decimal : SpellsDecimal i.routingTable n) :
    i.getRoutingTable = if n < -2 ^ 63 then -1 else limited n := by
  rw [getRoutingTable_plain (plain_of_decimal decimal), decimal, Option.elim_some]

theorem getRoutingTable_of_hex {n : ℕ} (hex : SpellsHex i.routingTable n) :
    i.getRoutingTable = limited n := by
  obtain ⟨digits, marked, notEmpty, number⟩ := hex
  rw [getRoutingTable_hex marked, if_neg notEmpty, number, Option.elim_some]

theorem same_table {i j : Interface} {n : ℕ} (decimal : SpellsDecimal i.routingTable n)
    (hex : SpellsHex j.routingTable n) : j.getRoutingTable = i.getRoutingTable := by
  rw [getRoutingTable_of_decimal decimal, getRoutingTable_of_hex hex, if_neg (by omega)]

/-- What is read from a text that is not off is a number below the limit, if it is one. -/
theorem readable_iff_of_managed (managed : lowered i.routingTable ≠ "off".toList) :
    Readable i.routingTable ↔ 0 ≤ i.getRoutingTable ∧ i.getRoutingTable ≤ maxInt32 := by
  constructor
  · rintro (empty | off | ⟨n, decimal, positive, small⟩ | ⟨n, hex, small⟩)
    · rw [getRoutingTable_empty empty]
      decide
    · exact absurd off managed
    · rw [getRoutingTable_of_decimal decimal, if_neg (by omega), limited,
        if_neg (Int.not_lt.mpr small)]
      exact ⟨positive, small⟩
    · rw [getRoutingTable_of_hex hex, limited, if_neg (Int.not_lt.mpr small)]
      exact ⟨Int.natCast_nonneg n, small⟩
  · rintro ⟨positive, small⟩
    by_cases empty : lowered i.routingTable = []
    · exact .inl empty
    by_cases marked : ∃ digits, lowered i.routingTable = '0' :: 'x' :: digits
    · obtain ⟨digits, marked⟩ := marked
      rw [getRoutingTable_hex marked] at positive small
      split at positive
      · exact absurd positive (by decide)
      · rename_i notEmpty
        cases number : ofDigits 16 hexVal (dropHexMarks digits) with
        | none =>
          rw [number] at positive
          exact absurd positive (by decide)
        | some n =>
          refine .inr (.inr (.inr ⟨n, ⟨digits, marked, notEmpty, number⟩, ?_⟩))
          rw [number, Option.elim_some] at positive
          rcases limited_natCast n with none | ⟨_, fits⟩
          · rw [none] at positive
            exact absurd positive (by decide)
          · exact fits
    · have plain : Plain i.routingTable := ⟨empty, managed, fun digits hex => marked ⟨digits, hex⟩⟩
      rw [getRoutingTable_plain plain] at positive small
      cases number : signedDecimal (lowered i.routingTable) with
      | none =>
        rw [number] at positive
        exact absurd positive (by decide)
      | some n =>
        refine .inr (.inr (.inl ⟨n, number, ?_⟩))
        rw [number, Option.elim_some, limited] at positive small
        split_ifs at positive small <;>
          first | exact ⟨positive, small⟩ | exact absurd positive (by decide)

/-- Both methods agree exactly on the texts that can be read. -/
theorem readConsistently_iff (i : Interface) : ReadConsistently i ↔ Readable i.routingTable := by
  by_cases off : lowered i.routingTable = "off".toList
  · have none := getRoutingTable_off off
    refine iff_of_true ⟨.inl none, ?_, fun j n decimal hex => same_table decimal hex⟩
      (.inr (.inl off))
    rw [managed_iff]
    exact iff_of_false (not_not_intro off) (not_not_intro none)
  · rw [readable_iff_of_managed off]
    constructor
    · intro consistent
      exact consistent.range.resolve_left (consistent.managed.mp (managed_iff.mpr off))
    · intro range
      refine ⟨.inr range, iff_of_true (managed_iff.mpr off) fun none => ?_,
        fun j n decimal hex => same_table decimal hex⟩
      rw [none] at range
      exact absurd range.1 (by decide)

/-- An interface with this routing table -/
def inTable (table : String) : Interface := { Interface.zero with routingTable := table }

/-- A name does not disable the management of routes although it is no number, and a negative
number is taken for a table. -/
theorem unreadable_tables :
    ((inTable "main").getRoutingTable = -1 ∧ (inTable "main").manageRoutingTable = true ∧
      ¬ ReadConsistently (inTable "main")) ∧
    (inTable "-5").getRoutingTable = -5 ∧ ¬ ReadConsistently (inTable "-5") := by
  have name : lowered "main" = "main".toList := by
    rw [lowered_eq]
    decide
  have unread : (inTable "main").getRoutingTable = -1 := by
    have plain : Plain (inTable "main").routingTable := by
      refine ⟨?_, ?_, fun digits => ?_⟩ <;> rw [inTable, name]
      · decide
      · decide
      · exact fun same => by cases same
    rw [getRoutingTable_plain plain, inTable, name]
    decide
  have managed : (inTable "main").manageRoutingTable = true := by
    rw [managed_iff, inTable, name]
    decide
  have negative : (inTable "-5").getRoutingTable = -5 := by
    have decimal : SpellsDecimal (inTable "-5").routingTable (-5) := by
      rw [SpellsDecimal, inTable, lowered_eq]
      decide
    rw [getRoutingTable_of_decimal decimal]
    decide
  refine ⟨⟨unread, managed, fun consistent => ?_⟩, negative, fun consistent => ?_⟩
  · exact consistent.managed.mp managed unread
  · have range := consistent.range
    rw [negative] at range
    exact absurd range (by decide)

end RoutingTable

end WgPortal.Domain
