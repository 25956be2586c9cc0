import WgPortal.App.FanoutStart

/-! How the fan-out brings its configured topics into the form that it subscribes to: the
loop over the list, with what it has seen so far and what it may still have to add. -/

namespace WgPortal.App.Fanout

open WireGuard

structure Migration where
  newTopics : List String
  seenTopics : String → Bool
  syncsToAdd : String → Bool

namespace Migration

def start : Migration := ⟨[], fun _ => false, fun topic => topic ∈ syncTopics⟩

/-- A topic is appended unless it was seen. -/
def append (m : Migration) (topic : String) : Migration :=
  if m.seenTopics topic then m
  else
    { m with
      newTopics := m.newTopics ++ [topic]
      seenTopics := Function.update m.seenTopics topic true }

/-- The case of a legacy name. -/
def migrate (m : Migration) (syncTopic : String) : Migration :=
  { m.append syncTopic with syncsToAdd := Function.update m.syncsToAdd syncTopic false }

def next (m : Migration) (topic : String) : Migration :=
  if topic = "peer:created" then m.migrate "peer:created:sync"
  else if topic = "peer:updated" then m.migrate "peer:updated:sync"
  else if topic = "peer:deleted" then m.migrate "peer:deleted:sync"
  else if topic ∈ ["interface:created", "interface:updated", "interface:deleted"] then m
  else m.append topic

def addMissing (m : Migration) (syncTopic : String) : Migration :=
  if m.syncsToAdd syncTopic then m.append syncTopic else m

end Migration

/-- The topics of the settings after the migration; `order` is that of `syncsToAdd`. -/
def startTopics (order : MapOrder String) (topics : List String) : List String :=
  if topics.isEmpty then syncTopics
  else
    let migration := topics.foldl Migration.next Migration.start
    ((order.order syncTopics).foldl Migration.addMissing migration).newTopics

namespace Migration

/-- Each topic is listed once, and seen are those that are listed. A sync topic that is not
to be added is one of them. -/
structure Consistent (m : Migration) : Prop where
  nodup : m.newTopics.Nodup
  seen : ∀ topic, m.seenTopics topic = true ↔ topic ∈ m.newTopics
  added : ∀ topic ∈ syncTopics, m.syncsToAdd topic = false → topic ∈ m.newTopics

variable {m : Migration}

theorem consistent_start : start.Consistent where
  nodup := List.nodup_nil
  seen := fun _ => by simp [start]
  added := by
    intro topic listed waived
    rw [start, decide_eq_false_iff_not] at waived
    exact absurd listed waived

theorem mem_append (consistent : m.Consistent) {topic other : String} :
    other ∈ (m.append topic).newTopics ↔ other ∈ m.newTopics ∨ other = topic := by
  unfold append
  split
  · rename_i seen
    refine ⟨.inl, fun listed => listed.elim id ?_⟩
    rintro rfl
    exact (consistent.seen other).mp seen
  · simp

@[simp] theorem append_syncsToAdd (topic : String) :
    (m.append topic).syncsToAdd = m.syncsToAdd := by
  unfold append
  split <;> rfl

theorem Consistent.append (consistent : m.Consistent) (topic : String) :
    (m.append topic).Consistent := by
  have added : ∀ other ∈ syncTopics, (m.append topic).syncsToAdd other = false →
      other ∈ (m.append topic).newTopics := by
    intro other listed waived
    rw [append_syncsToAdd] at waived
    exact (mem_append consistent).mpr (.inl (consistent.added other listed waived))
  by_cases seen : m.seenTopics topic
  · rw [Migration.append, if_pos seen]
    exact consistent
  · have fresh : topic ∉ m.newTopics := fun listed => seen ((consistent.seen topic).mpr listed)
    refine ⟨?_, fun other => ?_, added⟩
    · rw [Migration.append, if_neg seen]
      exact List.nodup_append.mpr ⟨consistent.nodup, List.nodup_singleton topic,
        fun a listed b here => by
          rw [List.mem_singleton.mp here]
          exact fun same => fresh (same ▸ listed)⟩
    · rw [mem_append consistent, ← consistent.seen, Migration.append, if_neg seen]
      by_cases same : other = topic
      · simp [same]
      · simp [same]

theorem Consistent.migrate (consistent : m.Consistent) (syncTopic : String) :
    (m.migrate syncTopic).Consistent := by
  have appended := consistent.append syncTopic
  refine ⟨appended.nodup, appended.seen, fun topic listed waived => ?_⟩
  refine (mem_append consistent).mpr ?_
  by_cases same : topic = syncTopic
  · exact .inr same
  · refine .inl (consistent.added topic listed ?_)
    simpa [Migration.migrate, same] using waived

/-- One round of the loop: the topic is listed under the name that it migrates to. -/
theorem next_eq (m : Migration) (topic : String) : (m.next topic).newTopics =
    (migrated topic).elim m.newTopics fun name => (m.append name).newTopics := by
  unfold next migrated
  split_ifs <;> rfl

theorem Consistent.next (consistent : m.Consistent) (topic : String) :
    (m.next topic).Consistent := by
  unfold Migration.next
  split_ifs
  · exact consistent.migrate _
  · exact consistent.migrate _
  · exact consistent.migrate _
  · exact consistent
  · exact consistent.append topic

theorem mem_next (consistent : m.Consistent) {topic other : String} :
    other ∈ (m.next topic).newTopics ↔ other ∈ m.newTopics ∨ migrated topic = some other := by
  rw [next_eq]
  cases migrated topic with
  | none => simp
  | some name => simp only [Option.elim_some, mem_append consistent, Option.some.injEq, eq_comm]

theorem Consistent.addMissing (consistent : m.Consistent) (syncTopic : String) :
    (m.addMissing syncTopic).Consistent := by
  unfold Migration.addMissing
  split
  · exact consistent.append syncTopic
  · exact consistent

/-- A sync topic is listed afterwards, whether it was to be added or not. -/
theorem mem_addMissing (consistent : m.Consistent) {syncTopic other : String}
    (sync : syncTopic ∈ syncTopics) :
    other ∈ (m.addMissing syncTopic).newTopics ↔ other ∈ m.newTopics ∨ other = syncTopic := by
  unfold Migration.addMissing
  split
  · exact mem_append consistent
  · rename_i waived
    refine ⟨.inl, fun listed => listed.elim id ?_⟩
    rintro rfl
    exact consistent.added other sync (by simpa using waived)

/-- The loop over the configured topics. -/
theorem foldl_next (consistent : m.Consistent) (topics : List String) :
    (topics.foldl Migration.next m).Consistent ∧
      ∀ other, other ∈ (topics.foldl Migration.next m).newTopics ↔
        other ∈ m.newTopics ∨ ∃ topic ∈ topics, migrated topic = some other := by
  induction topics generalizing m with
  | nil => exact ⟨consistent, fun other => by simp⟩
  | cons topic topics ih =>
    obtain ⟨after, listed⟩ := ih (consistent.next topic)
    refine ⟨after, fun other => ?_⟩
    rw [List.foldl_cons, listed, mem_next consistent, or_assoc, List.exists_mem_cons_iff]

/-- The loop over the sync topics. -/
theorem foldl_addMissing (consistent : m.Consistent) {syncs : List String}
    (sub : ∀ topic ∈ syncs, topic ∈ syncTopics) :
    (syncs.foldl Migration.addMissing m).Consistent ∧
      ∀ other, other ∈ (syncs.foldl Migration.addMissing m).newTopics ↔
        other ∈ m.newTopics ∨ other ∈ syncs := by
  induction syncs generalizing m with
  | nil => exact ⟨consistent, fun other => by simp⟩
  | cons topic syncs ih =>
    have here := sub topic List.mem_cons_self
    obtain ⟨after, listed⟩ := ih (consistent.addMissing topic)
      fun other later => sub other (List.mem_cons_of_mem _ later)
    refine ⟨after, fun other => ?_⟩
    rw [List.foldl_cons, listed, mem_addMissing consistent here, or_assoc, List.mem_cons]

theorem newTopics_append (consistent : m.Consistent) (topic : String) :
    (m.append topic).newTopics =
      if topic ∈ m.newTopics then m.newTopics else m.newTopics ++ [topic] := by
  unfold append
  by_cases seen : topic ∈ m.newTopics
  · rw [if_pos ((consistent.seen topic).mpr seen), if_pos seen]
  · rw [if_neg fun here => seen ((consistent.seen topic).mp here), if_neg seen]

/-- The loop, as it acts on the list alone. -/
theorem newTopics_foldl_next {f : List String → String → List String}
    (step : ∀ newTopics topic, f newTopics topic = (migrated topic).elim newTopics fun name =>
      if name ∈ newTopics then newTopics else newTopics ++ [name])
    (consistent : m.Consistent) (topics : List String) :
    (topics.foldl Migration.next m).newTopics = topics.foldl f m.newTopics := by
  induction topics generalizing m with
  | nil => rfl
  | cons topic topics ih =>
    rw [List.foldl_cons, List.foldl_cons, ih (consistent.next topic), next_eq, step]
    simp only [newTopics_append consistent]

/-- What the second loop adds is decided by the list as the first one left it. -/
theorem newTopics_foldl_addMissing (consistent : m.Consistent) {syncs : List String}
    (nodup : syncs.Nodup) (sub : ∀ topic ∈ syncs, topic ∈ syncTopics) :
    (syncs.foldl Migration.addMissing m).newTopics =
      m.newTopics ++ syncs.filter (· ∉ m.newTopics) := by
  induction syncs generalizing m with
  | nil => simp
  | cons topic syncs ih =>
    obtain ⟨fresh, nodup⟩ := List.nodup_cons.mp nodup
    have here := sub topic List.mem_cons_self
    have listed := fun other => @mem_addMissing m consistent topic other here
    have same : ∀ other ∈ syncs, other ∉ (m.addMissing topic).newTopics ↔ other ∉ m.newTopics := by
      intro other later
      have ne : other ≠ topic := fun same => fresh (same ▸ later)
      simp [listed, ne]
    rw [List.foldl_cons, ih (consistent.addMissing topic) nodup
      fun other later => sub other (List.mem_cons_of_mem _ later),
      List.filter_congr fun other later => decide_eq_decide.mpr (same other later)]
    by_cases known : topic ∈ m.newTopics
    · have unchanged : (m.addMissing topic).newTopics = m.newTopics := by
        unfold addMissing
        split
        · rw [newTopics_append consistent, if_pos known]
        · rfl
      rw [unchanged, List.filter_cons_of_neg (by simpa using known)]
    · have adds : m.syncsToAdd topic = true :=
        Bool.of_not_eq_false fun waived => known (consistent.added topic here waived)
      rw [List.filter_cons_of_pos (by simpa using known), addMissing, if_pos adds,
        newTopics_append consistent, if_neg known, List.append_assoc, List.singleton_append]

end Migration

section Start

variable (order : MapOrder String) (topics : List String)

theorem order_syncTopics : ∀ topic ∈ order.order syncTopics, topic ∈ syncTopics :=
  fun _ listed => (order.perm syncTopics).mem_iff.mp listed

/-- The configured topics under the names that they migrate to, and the sync topics. -/
theorem mem_startTopics {other : String} : other ∈ startTopics order topics ↔
    (∃ topic ∈ topics, migrated topic = some other) ∨ other ∈ syncTopics := by
  by_cases none : topics = []
  · subst none
    simp [startTopics]
  · obtain ⟨consistent, listed⟩ := Migration.foldl_next Migration.consistent_start topics
    obtain ⟨_, added⟩ := Migration.foldl_addMissing consistent (order_syncTopics order)
    rw [startTopics, if_neg (by simpa using none), added, listed,
      (order.perm syncTopics).mem_iff]
    simp [Migration.start]

theorem nodup_startTopics : (startTopics order topics).Nodup := by
  unfold startTopics
  split
  · decide
  · have consistent := (Migration.foldl_next Migration.consistent_start topics).1
    exact (Migration.foldl_addMissing consistent (order_syncTopics order)).1.nodup

/-- The maps only tell what the list of the new topics says, too. -/
theorem startTopics_eq_subscribedTopics :
    startTopics order topics = subscribedTopics order topics := by
  unfold startTopics subscribedTopics
  split
  · rfl
  · have consistent := (Migration.foldl_next Migration.consistent_start topics).1
    have nodup : (order.order syncTopics).Nodup :=
      (order.perm syncTopics).nodup_iff.mpr (by decide)
    rw [Migration.newTopics_foldl_addMissing consistent nodup (order_syncTopics order),
      Migration.newTopics_foldl_next (fun newTopics topic => ?_) Migration.consistent_start]
    · rfl
    · cases migrated topic <;> rfl

end Start

def interfaceTopics : List String := ["interface:created", "interface:updated", "interface:deleted"]

def legacyTopics : List String := ["peer:created", "peer:updated", "peer:deleted"]

theorem migrated_eq {topic name : String} (listed : migrated topic = some name) :
    name ∉ interfaceTopics ∧ name ∉ legacyTopics := by
  unfold migrated at listed
  split_ifs at listed with created updated deleted iface
  · cases listed
    decide
  · cases listed
    decide
  · cases listed
    decide
  · cases listed
    exact ⟨iface, by simp [legacyTopics, created, updated, deleted]⟩

theorem migrated_of_other {topic : String} (other : topic ∉ interfaceTopics)
    (current : topic ∉ legacyTopics) : migrated topic = some topic := by
  simp only [legacyTopics, List.mem_cons, List.not_mem_nil, or_false, not_or] at current
  obtain ⟨created, updated, deleted⟩ := current
  rw [migrated, if_neg created, if_neg updated, if_neg deleted]
  exact if_neg other

/-- What the list that is subscribed to should be like. -/
structure Normalised (topics subscribed : List String) : Prop where
  nodup : subscribed.Nodup
  syncs : ∀ topic ∈ syncTopics, topic ∈ subscribed
  noInterface : ∀ topic ∈ interfaceTopics, topic ∉ subscribed
  noLegacy : ∀ topic ∈ legacyTopics, topic ∉ subscribed
  others : ∀ topic ∈ topics, topic ∉ interfaceTopics → topic ∉ legacyTopics → topic ∈ subscribed

theorem syncTopics_plain : ∀ topic ∈ syncTopics, topic ∉ interfaceTopics ∧ topic ∉ legacyTopics := by
  decide

/-- Whatever is configured, and in whatever order the missing topics are added. -/
theorem startTopics_normalised (order : MapOrder String) (topics : List String) :
    Normalised topics (startTopics order topics) := by
  have plain : ∀ topic ∈ startTopics order topics,
      topic ∉ interfaceTopics ∧ topic ∉ legacyTopics := by
    intro topic listed
    rcases (mem_startTopics order topics).mp listed with ⟨_, _, name⟩ | sync
    · exact migrated_eq name
    · exact syncTopics_plain topic sync
  refine ⟨nodup_startTopics order topics, fun topic sync => ?_,
    fun topic iface listed => (plain topic listed).1 iface,
    fun topic legacy listed => (plain topic listed).2 legacy,
    fun topic listed other current => ?_⟩
  · exact (mem_startTopics order topics).mpr (.inr sync)
  · exact (mem_startTopics order topics).mpr
      (.inl ⟨topic, listed, migrated_of_other other current⟩)

end WgPortal.App.Fanout
