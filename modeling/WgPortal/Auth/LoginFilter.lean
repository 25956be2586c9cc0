import WgPortal.Library.LdapFilter
import WgPortal.Auth.ActiveUsers

/-! What a directory reads in a login filter with an entered name. -/

namespace WgPortal.Auth

open Domain
open Library.LdapFilter

/-- A text with holes where `replaceAll` would write. -/
def markAll (old : List Char) : ℕ → List Char → List (Option Char)
  | _, [] => []
  | skipped + 1, _ :: text => markAll old skipped text
  | 0, c :: text =>
    if old <+: c :: text then none :: markAll old (old.length - 1) text
    else some c :: markAll old 0 text

/-- The tree of a login filter that has the placeholder in a value. -/
structure LoginTemplate (loginFilter : String) where
  filter : Query (Option Letter)
  proper : filter.Proper
  hole : none ∈ filter.symbols
  written : markAll loginIdentifier.toList 0 loginFilter.toList = filter.text templateText some

variable {DN : Type}

/-- The tree with the entered name as the value. -/
def LoginTemplate.filled {loginFilter : String} (t : LoginTemplate loginFilter)
    (userId : UserIdentifier) : Query UInt8 := t.filter.map (fillOctets userId.toList)

/-- Every reading of the filter that is searched for is the filled template, and it has one. -/
def InjectionFree (l : LdapAuthenticator DN) (t : LoginTemplate l.cfg.loginFilter)
    (userId : UserIdentifier) : Prop :=
  ∀ tree, ReadAs (l.loginFilter userId).toList tree ↔ tree = t.filled userId

theorem replaceAll_eq_fill (old new : List Char) : ∀ (skipped : ℕ) (text : List Char),
    replaceAll old new skipped text = (markAll old skipped text).flatMap (fill new) := by
  intro skipped text
  induction text generalizing skipped with
  | nil => cases skipped <;> rfl
  | cons c text ih =>
    cases skipped with
    | succ skipped => exact ih skipped
    | zero =>
      rw [replaceAll, markAll]
      split
      · rw [List.flatMap_cons, ← ih]
        rfl
      · rw [List.flatMap_cons, ← ih]
        rfl

theorem loginFilter_eq_fill (l : LdapAuthenticator DN) (t : LoginTemplate l.cfg.loginFilter)
    (userId : UserIdentifier) : (l.loginFilter userId).toList =
      (t.filter.text templateText some).flatMap (fill userId.toList) := by
  rw [LdapAuthenticator.loginFilter, String.toList_ofList, replaceAll_eq_fill, t.written]

/-- No special character, and some part of every pattern that is searched for -/
def Harmless {loginFilter : String} (t : LoginTemplate loginFilter) (userId : UserIdentifier) :
    Prop :=
  (∀ c ∈ userId.toList, isNormal c) ∧ (userId = "" → (t.filled "").Proper)

/-- An entered name is read as the value of the attribute, and nothing else, if and only if it
has no character that is special in filters. -/
theorem loginFilter_injectionFree_iff (l : LdapAuthenticator DN)
    (t : LoginTemplate l.cfg.loginFilter) (userId : UserIdentifier) :
    InjectionFree l t userId ↔ Harmless t userId := by
  have empty : userId.toList = [] ↔ userId = "" := String.toList_eq_nil_iff
  have reads : ReadAs (l.loginFilter userId).toList (t.filled userId) ↔ Harmless t userId := by
    rw [loginFilter_eq_fill l t, LoginTemplate.filled, reads_fill_iff t.proper t.hole, empty]
    rfl
  rw [← reads]
  constructor
  · intro free
    exact (free _).mpr rfl
  · intro filled tree
    constructor
    · exact fun reads => reads.unique filled
    · rintro rfl
      exact filled

theorem isAttribute_of_descriptor {text : List Char} (named : isDescriptor text) :
    IsAttribute text := ⟨text, [], .inl named, nofun, (List.append_nil text).symm⟩

def uid : Attribute := ⟨['u', 'i', 'd'], isAttribute_of_descriptor (by decide)⟩

def mail : Attribute := ⟨['m', 'a', 'i', 'l'], isAttribute_of_descriptor (by decide)⟩

/-- The attribute alone, before an equals sign -/
def plainHead (attr : Attribute) : Head := ⟨attr.text, by
  have head := IsHead.simple attr.valid (List.mem_cons_self : [] ∈ marks)
  rwa [List.append_nil] at head⟩

/-- The identifier or the mail address is the entered name. -/
def sampleTemplate : LoginTemplate (sampleProvider "ldap").loginFilter where
  filter := .or (.more (.item (.value (plainHead uid) [none]))
    (.one (.item (.value (plainHead mail) [none]))))
  proper := ⟨trivial, trivial⟩
  hole := List.mem_cons_self
  written := by decide +kernel

def sampleLdapAuthenticator : LdapAuthenticator String := ⟨sampleProvider "ldap", "cn=admins"⟩

theorem alice_injectionFree : InjectionFree sampleLdapAuthenticator sampleTemplate "alice" :=
  (loginFilter_injectionFree_iff sampleLdapAuthenticator sampleTemplate "alice").mpr
    ⟨List.all_iff_forall_prop.mp (by decide), nofun⟩

/-- An asterisk is read as a search for everybody who has an identifier or a mail address. -/
theorem asterisk_not_injectionFree :
    ReadAs (sampleLdapAuthenticator.loginFilter "*").toList
      (.or (.more (.item (.present uid)) (.one (.item (.present mail))))) ∧
    ¬ InjectionFree sampleLdapAuthenticator sampleTemplate "*" := by
  have everybody : ReadAs (sampleLdapAuthenticator.loginFilter "*").toList
      (.or (.more (.item (.present uid)) (.one (.item (.present mail))))) := by
    refine ⟨.or (.more (.item (.present uid)) (.one (.item (.present mail)))), ⟨trivial, trivial⟩,
      ?_, rfl⟩
    decide +kernel
  refine ⟨everybody, fun free => ?_⟩
  have same := (free _).mp everybody
  cases same

end WgPortal.Auth
