import WgPortal.Domain.Interface

/-! The default endpoint that an interface has once it is validated. -/

namespace WgPortal.Domain.Interface

/-- A text without brackets -/
def Bare (text : List Char) : Prop := '[' ∉ text ∧ ']' ∉ text

instance (text : List Char) : Decidable (Bare text) := inferInstanceAs (Decidable (_ ∧ _))

theorem Bare.append {text text' : List Char} (bare : Bare text) (bare' : Bare text') :
    Bare (text ++ text') :=
  ⟨fun mem => (List.mem_append.mp mem).elim bare.1 bare'.1,
    fun mem => (List.mem_append.mp mem).elim bare.2 bare'.2⟩

/-- The endpoints that name a port, which may be empty -/
inductive NamesPort : (endpoint host port : List Char) → Prop where
  | plain {host port : List Char} : Bare host → ':' ∉ host → Bare port → ':' ∉ port →
      NamesPort (host ++ ':' :: port) host port
  | bracketed {host port : List Char} : Bare host → Bare port → ':' ∉ port →
      NamesPort ('[' :: host ++ ']' :: ':' :: port) host port

/-- The endpoints with their host and port. A single colon always separates a port. -/
inductive Gives : (endpoint host port : List Char) → Prop where
  | port {endpoint host port : List Char} : NamesPort endpoint host port → Gives endpoint host port
  | host {host : List Char} : Bare host → host.count ':' ≠ 1 → Gives host host []
  | bracketed {host : List Char} : Bare host → Gives ('[' :: host ++ [']']) host []

/-- The port, or the one of the interface if there is none -/
def portOr (listenPort : Int) (port : List Char) : List Char :=
  if port = [] then (toString listenPort).toList else port

/-- What is stored for a default endpoint -/
structure Normalised (i j : Interface) : Prop where
  parts : i.peerDefEndpoint ≠ "" → ∃ host port,
    splitHostPort j.peerDefEndpoint = .ok (host, port) ∧ Bare host.toList ∧ port ≠ "" ∧
      ∃ given, Gives i.peerDefEndpoint.toList host.toList given ∧
        port.toList = portOr i.listenPort given
  again : j.validate = .ok j

/-- Either a port is given, or neither a bracket nor the colon of a port. -/
def Complete (endpoint : List Char) : Prop :=
  (∃ host port, port ≠ [] ∧ NamesPort endpoint host port) ∨
    Bare endpoint ∧ endpoint.count ':' ≠ 1

namespace NamesPort

variable {endpoint host port : List Char}

theorem bare_host (names : NamesPort endpoint host port) : Bare host := by
  cases names with
  | plain bare => exact bare
  | bracketed bare => exact bare

theorem bare_port (names : NamesPort endpoint host port) : Bare port := by
  cases names with
  | plain _ _ bare => exact bare
  | bracketed _ bare => exact bare

theorem noColon_port (names : NamesPort endpoint host port) : ':' ∉ port := by
  cases names with
  | plain _ _ _ noColon => exact noColon
  | bracketed _ _ noColon => exact noColon

end NamesPort

theorem bare_of_splits {front back : List Char} (bare : Bare (front ++ back)) :
    Bare front ∧ Bare back :=
  ⟨⟨fun mem => bare.1 (List.mem_append_left _ mem),
      fun mem => bare.2 (List.mem_append_left _ mem)⟩,
    ⟨fun mem => bare.1 (List.mem_append_right _ mem),
      fun mem => bare.2 (List.mem_append_right _ mem)⟩⟩

/-- The endpoints that `net.SplitHostPort` splits -/
theorem splitHostPort_eq_ok_iff {endpoint host port : String} :
    splitHostPort endpoint = .ok (host, port) ↔
      NamesPort endpoint.toList host.toList port.toList := by
  constructor
  · intro splits
    unfold splitHostPort at splits
    simp only at splits
    split at splits
    · cases splits
    rename_i front last cut
    obtain ⟨shape, noColon⟩ := cutLast_eq_some.mp cut
    split at splits
    · rename_i rest opened
      split at splits
      · cases splits
      · cases splits
      · rename_i inside tail close
        obtain ⟨shape', noClose⟩ := cutFirst_eq_some.mp close
        split at splits
        · cases splits
        rename_i same
        split at splits
        · cases splits
        rename_i noOpen
        split at splits
        · cases splits
        rename_i noClose'
        obtain ⟨rfl, rfl⟩ := Prod.mk.inj (Except.ok.inj splits)
        obtain rfl := not_not.mp same
        rw [shape'] at noOpen
        rw [opened, shape', String.toList_ofList, String.toList_ofList]
        have bare : Bare inside :=
          ⟨fun mem => noOpen (by simp [mem]), noClose⟩
        have bare' : Bare tail := ⟨fun mem => noOpen (by simp [mem]), noClose'⟩
        exact .bracketed bare bare' noColon
      · cases splits
    · split at splits
      · cases splits
      rename_i noColon'
      split at splits
      · cases splits
      rename_i noOpen
      split at splits
      · cases splits
      rename_i noClose
      obtain ⟨rfl, rfl⟩ := Prod.mk.inj (Except.ok.inj splits)
      rw [shape] at noOpen noClose
      obtain ⟨bare, bare'⟩ := bare_of_splits ⟨noOpen, noClose⟩
      rw [shape, String.toList_ofList, String.toList_ofList]
      exact .plain bare noColon' (bare_of_splits (List.singleton_append ▸ bare')).2 noColon
  · intro names
    generalize text : endpoint.toList = endpoint' at names
    generalize text' : host.toList = host' at names
    generalize text'' : port.toList = port' at names
    have result : (Except.ok (String.ofList host', String.ofList port') : Except Error _) =
        .ok (host, port) := by
      rw [← text', ← text'', String.ofList_toList, String.ofList_toList]
    unfold splitHostPort
    simp only [text]
    cases names with
    | plain bare noColon bare' noColon' =>
      rw [cutLast_eq_some.mpr ⟨rfl, noColon'⟩]
      have colon : Bare [':'] := by decide
      have closed : Bare (host' ++ ':' :: port') := bare.append (colon.append bare')
      simp only
      split
      · rename_i rest opened
        exact absurd (opened ▸ List.mem_cons_self) closed.1
      · rw [if_neg noColon, if_neg closed.1, if_neg closed.2, result]
    | bracketed bare bare' noColon =>
      have cut : cutLast ':' ('[' :: host' ++ ']' :: ':' :: port') =
          some ('[' :: host' ++ [']'], port') :=
        cutLast_eq_some.mpr ⟨by simp, noColon⟩
      have close : cutFirst ']' (host' ++ ']' :: ':' :: port') = some (host', ':' :: port') :=
        cutFirst_eq_some.mpr ⟨rfl, bare.2⟩
      rw [cut]
      simp only [List.cons_append, close]
      have noOpen : '[' ∉ host' ++ ']' :: ':' :: port' := by
        simp [bare.1, bare'.1]
      rw [if_neg (not_not.mpr rfl), if_neg noOpen, if_neg bare'.2, result]

theorem toList_join (host port : String) :
    (joinHostPort host port).toList =
      (if ':' ∈ host.toList then '[' :: host.toList ++ [']'] else host.toList) ++
        ':' :: port.toList := by
  unfold joinHostPort
  split <;> simp [String.toList_append]

theorem namesPort_join {host port : String} (bare : Bare host.toList) (bare' : Bare port.toList)
    (noColon : ':' ∉ port.toList) :
    NamesPort (joinHostPort host port).toList host.toList port.toList := by
  rw [toList_join]
  split
  · rw [List.append_assoc]
    exact .bracketed bare bare' noColon
  · rename_i noColon'
    exact .plain bare noColon' bare' noColon

theorem bare_listenPort (listenPort : Int) :
    Bare (toString listenPort).toList ∧ ':' ∉ (toString listenPort).toList := by
  have other : ∀ c ∈ ['[', ']', ':'], c ∉ (toString listenPort).toList := by
    intro c special mem
    have noDigit : ∀ c ∈ ['[', ']', ':'], ¬ (c.isDigit ∨ c = '-') :=
      List.forall_iff_forall_mem.mp (by decide)
    exact noDigit c special (digit_of_mem_toString mem)
  exact ⟨⟨other _ (by simp), other _ (by simp)⟩, other _ (by simp)⟩

theorem listenPort_ne_nil (listenPort : Int) : (toString listenPort).toList ≠ [] := by
  cases listenPort with
  | ofNat n => exact Nat.toList_repr (n := n) ▸ Nat.toDigits_ne_nil
  | negSucc n => rw [toList_negSucc]; exact List.cons_ne_nil _ _

/-- A complete endpoint is stored as it is. -/
theorem validate_joined {i : Interface} {host port : String}
    (joined : i.peerDefEndpoint = joinHostPort host port)
    (names : NamesPort i.peerDefEndpoint.toList host.toList port.toList) : i.validate = .ok i := by
  rw [validate_eq_self_iff, completeEndpoint, splitHostPort_eq_ok_iff.mpr names]
  split
  · rfl
  · exact congrArg Except.ok joined.symm

/-- What is stored for the endpoints that are accepted -/
theorem stored_cases {i j : Interface} (valid : i.validate = .ok j) :
    i.peerDefEndpoint = "" ∧ j = i ∨
      (∃ host port, splitHostPort i.peerDefEndpoint = .ok (host, port) ∧
        j = { i with peerDefEndpoint := joinHostPort host port }) ∨
      (∃ err, splitHostPort i.peerDefEndpoint = .error err) ∧
        j = { i with
          peerDefEndpoint := joinHostPort i.peerDefEndpoint (toString i.listenPort) } := by
  unfold validate at valid
  split at valid
  · rename_i none
    exact .inl ⟨none, (Except.ok.inj valid).symm⟩
  · split at valid
    · rename_i host port splits
      exact .inr (.inl ⟨host, port, splits, (Except.ok.inj valid).symm⟩)
    · rename_i err fails
      split at valid
      · exact .inr (.inr ⟨⟨err, fails⟩, (Except.ok.inj valid).symm⟩)
      · cases valid

/-- An endpoint is split unless it is a host alone or has a bracket. -/
theorem namesPort_of_count {endpoint : List Char} (bare : Bare endpoint)
    (one : endpoint.count ':' = 1) : ∃ host port, NamesPort endpoint host port := by
  have mem : ':' ∈ endpoint := List.count_pos_iff.mp (by omega)
  obtain ⟨front, back, rfl⟩ := List.append_of_mem mem
  have counts : front.count ':' = 0 ∧ back.count ':' = 0 := by
    rw [List.count_append, List.count_cons_self] at one
    omega
  obtain ⟨bare, bare'⟩ := bare_of_splits bare
  exact ⟨front, back, .plain bare (List.count_eq_zero.mp counts.1)
    (bare_of_splits (List.singleton_append ▸ bare')).2 (List.count_eq_zero.mp counts.2)⟩

theorem NamesPort.count {endpoint host port : List Char} (names : NamesPort endpoint host port)
    (bare : Bare endpoint) : endpoint.count ':' = 1 := by
  cases names with
  | plain _ noColon _ noColon' =>
    rw [List.count_append, List.count_cons_self, List.count_eq_zero.mpr noColon,
      List.count_eq_zero.mpr noColon']
  | bracketed => exact absurd List.mem_cons_self bare.1

theorem eq_of_lastColon {front front' back back' : List Char} (noColon : ':' ∉ back)
    (noColon' : ':' ∉ back') (same : front ++ ':' :: back = front' ++ ':' :: back') :
    front = front' ∧ back = back' := by
  have cut : cutLast ':' (front ++ ':' :: back) = some (front, back) :=
    cutLast_eq_some.mpr ⟨rfl, noColon⟩
  rw [same, cutLast_eq_some.mpr ⟨rfl, noColon'⟩] at cut
  exact (Prod.mk.inj (Option.some.inj cut)).imp Eq.symm Eq.symm

/-- The last colon of what is stored stands before the port. -/
theorem NamesPort.eq_of_join {host port : String} {host' port' : List Char}
    (names : NamesPort (joinHostPort host port).toList host' port') (noColon : ':' ∉ port.toList) :
    port' = port.toList ∧
      (host' = host.toList ∨ '[' :: host' ++ [']'] = host.toList ∧ ':' ∉ host.toList) := by
  rw [toList_join] at names
  generalize text : _ ++ ':' :: port.toList = endpoint at names
  cases names with
  | plain bare noColon' bare' noColon'' =>
    obtain ⟨front, back⟩ := eq_of_lastColon noColon noColon'' text
    refine ⟨back.symm, .inl ?_⟩
    split at front
    · exact absurd (front ▸ List.mem_cons_self) bare.1
    · exact front.symm
  | bracketed bare bare' noColon' =>
    have shape : '[' :: host' ++ ']' :: ':' :: port' = ('[' :: host' ++ [']']) ++ ':' :: port' := by
      simp
    rw [shape] at text
    obtain ⟨front, back⟩ := eq_of_lastColon noColon noColon' text
    refine ⟨back.symm, ?_⟩
    split at front
    · rename_i colon
      exact .inl (List.append_cancel_right (List.cons.inj front).2).symm
    · rename_i noColon
      exact .inr ⟨front.symm, noColon⟩

theorem NamesPort.unique {endpoint host port host' port' : List Char}
    (names : NamesPort endpoint host port) (names' : NamesPort endpoint host' port') :
    host = host' ∧ port = port' := by
  have splits : ∀ {host port : List Char}, NamesPort endpoint host port →
      splitHostPort (String.ofList endpoint) = .ok (String.ofList host, String.ofList port) :=
    fun names => splitHostPort_eq_ok_iff.mpr (by simpa only [String.toList_ofList] using names)
  have same := (splits names).symm.trans (splits names')
  have parts := Prod.mk.inj (Except.ok.inj same)
  exact ⟨String.ofList_injective parts.1, String.ofList_injective parts.2⟩

/-- An endpoint that is split is complete unless its port is empty. -/
theorem complete_iff_of_splits {endpoint host port : String}
    (splits : splitHostPort endpoint = .ok (host, port)) :
    Complete endpoint.toList ↔ port ≠ "" := by
  have names := splitHostPort_eq_ok_iff.mp splits
  constructor
  · rintro (⟨host', port', given, names'⟩ | ⟨bare, alone⟩) none
    · exact given ((names.unique names').2 ▸ String.toList_eq_nil_iff.mpr none)
    · exact alone (names.count bare)
  · exact fun given => .inl ⟨_, _, fun none => given (String.toList_eq_nil_iff.mp none), names⟩

/-- An endpoint that is not split is complete if it has no bracket. -/
theorem complete_iff_of_fails {endpoint : String} {err : Error}
    (fails : splitHostPort endpoint = .error err) :
    Complete endpoint.toList ↔ Bare endpoint.toList := by
  have unsplit : ∀ host port, ¬ NamesPort endpoint.toList host port := by
    intro host port names
    rw [← String.toList_ofList (l := host), ← String.toList_ofList (l := port)] at names
    rw [splitHostPort_eq_ok_iff.mpr names] at fails
    cases fails
  constructor
  · rintro (⟨host, port, -, names⟩ | ⟨bare, -⟩)
    · exact absurd names (unsplit host port)
    · exact bare
  · refine fun bare => .inr ⟨bare, fun one => ?_⟩
    obtain ⟨host, port, names⟩ := namesPort_of_count bare one
    exact unsplit host port names

/-- An endpoint that is kept is the one that its parts are joined to. -/
theorem joined_of_again {j : Interface} {host port : String} (again : j.validate = .ok j)
    (splits : splitHostPort j.peerDefEndpoint = .ok (host, port)) :
    j.peerDefEndpoint = joinHostPort host port := by
  rcases stored_cases again with ⟨none, -⟩ | ⟨host', port', splits', same⟩ | ⟨⟨err, fails⟩, -⟩
  · rw [none] at splits
    cases splits
  · obtain ⟨rfl, rfl⟩ := Prod.mk.inj (Except.ok.inj (splits.symm.trans splits'))
    exact congrArg peerDefEndpoint same
  · rw [splits] at fails
    cases fails

/-- An endpoint is stored with its host and a port exactly if it is complete. -/
theorem normalised_iff {i j : Interface} (valid : i.validate = .ok j) :
    Normalised i j ↔ Complete i.peerDefEndpoint.toList := by
  obtain ⟨bareNumber, noColon⟩ := bare_listenPort i.listenPort
  rcases stored_cases valid with ⟨none, rfl⟩ | ⟨host, port, splits, rfl⟩ | ⟨⟨err, fails⟩, rfl⟩
  · have complete : Complete j.peerDefEndpoint.toList := by
      rw [none]
      exact .inr ⟨by decide, by decide⟩
    exact iff_of_true ⟨fun given => absurd none given, valid⟩ complete
  · have names := splitHostPort_eq_ok_iff.mp splits
    have joined := namesPort_join names.bare_host names.bare_port names.noColon_port
    have splits' := splitHostPort_eq_ok_iff.mpr joined
    rw [complete_iff_of_splits splits]
    constructor
    · intro normalised
      have given : i.peerDefEndpoint ≠ "" := by
        intro none
        rw [none] at splits
        cases splits
      obtain ⟨host', port', again, -, numbered, -⟩ := normalised.parts given
      obtain ⟨-, rfl⟩ := Prod.mk.inj (Except.ok.inj (splits'.symm.trans again))
      exact numbered
    · intro numbered
      have effective : port.toList = portOr i.listenPort port.toList :=
        (if_neg fun none => numbered (String.toList_eq_nil_iff.mp none)).symm
      exact ⟨fun _ => ⟨host, port, splits', names.bare_host, numbered, _, .port names, effective⟩,
        validate_joined rfl joined⟩
  · rw [complete_iff_of_fails fails]
    constructor
    · intro normalised
      by_cases given : i.peerDefEndpoint = ""
      · rw [given]
        decide
      obtain ⟨host, port, splits, bare, -⟩ := normalised.parts given
      have joined := joined_of_again normalised.again splits
      obtain ⟨same, here | ⟨bracketed, noColon'⟩⟩ :=
        (splitHostPort_eq_ok_iff.mp splits).eq_of_join noColon
      · exact here ▸ bare
      · -- a host without a colon would be stored without its brackets
        have noColon'' : ':' ∉ host.toList := by
          rw [← bracketed] at noColon'
          exact fun mem => noColon' (by simp [mem])
        have text := congrArg String.toList joined
        rw [toList_join, toList_join, if_neg noColon', if_neg noColon'', ← bracketed, same] at text
        have longer := congrArg List.length (List.append_cancel_right text)
        rw [List.length_append, List.length_cons, List.length_singleton] at longer
        omega
    · intro bare
      have joined := namesPort_join bare bareNumber noColon
      have numbered : toString i.listenPort ≠ "" := fun none =>
        listenPort_ne_nil i.listenPort (String.toList_eq_nil_iff.mpr none)
      have alone : i.peerDefEndpoint.toList.count ':' ≠ 1 := by
        intro one
        obtain ⟨host, port, names⟩ := namesPort_of_count bare one
        rw [← String.toList_ofList (l := host), ← String.toList_ofList (l := port)] at names
        rw [splitHostPort_eq_ok_iff.mpr names] at fails
        cases fails
      have splits := splitHostPort_eq_ok_iff.mpr joined
      exact ⟨fun _ => ⟨i.peerDefEndpoint, toString i.listenPort, splits, bare, numbered, [],
        .host bare alone, (if_pos rfl).symm⟩, validate_joined rfl joined⟩

def hostName : Interface := { zero with peerDefEndpoint := "vpn.example.org", listenPort := 51820 }

theorem hostName_normalised : ∃ j, hostName.validate = .ok j ∧ Normalised hostName j := by
  have valid : hostName.validate =
      .ok { hostName with peerDefEndpoint := "vpn.example.org:51820" } := by decide
  have complete : Complete hostName.peerDefEndpoint.toList := .inr ⟨by decide, by decide⟩
  exact ⟨_, valid, (normalised_iff valid).mpr complete⟩

/-- An IPv6 address in its brackets -/
def ipv6 : Interface := { zero with peerDefEndpoint := "[::1]", listenPort := 51820 }

/-- The brackets are put around the address with its brackets. -/
theorem ipv6_notNormalised :
    ∃ j, ipv6.validate = .ok j ∧ j.peerDefEndpoint = "[[::1]]:51820" ∧ ¬ Normalised ipv6 j := by
  have valid : ipv6.validate = .ok { ipv6 with peerDefEndpoint := "[[::1]]:51820" } := by decide
  refine ⟨_, valid, rfl, fun normalised => ?_⟩
  obtain ⟨host, port, splits, -⟩ := normalised.parts (by decide)
  have fails : splitHostPort "[[::1]]:51820" =
      .error (addrError "[[::1]]:51820" "missing port in address") := by decide
  cases fails.symm.trans splits

end WgPortal.Domain.Interface
