import WgPortal.ConfigFile.Recovery
import WgPortal.Library.Transition

/-! The configuration files that the events of interfaces write and remove. The names of the
files are all that tells the interfaces apart. -/

namespace WgPortal.ConfigFile.FileNames

open Domain Library
open Adapters

/-- The storage directory: the texts of the files by their names -/
abbrev Files := String → Option String

/-- What fails; a text may be written in part. -/
inductive Fault where
  | database
  | openFile
  | copy (written : ℕ)
  | remove
deriving DecidableEq

section Code

variable (db : Db) (files : Files) (fault : Option Fault)

/-- What `WriteFile` leaves in the file, if it is opened -/
def written (contents : String) : Option String :=
  match fault with
  | some .openFile => none
  | some (.copy n) => some (String.ofList (contents.toList.take n))
  | _ => some contents

def writeFile (path contents : String) : Files :=
  match written fault contents with
  | none => files
  | some text => Function.update files path (some text)

def deleteFile (path : String) : Files :=
  if fault = some .remove then files else Function.update files path none

/-- `PersistInterfaceConfig` -/
def persist (id : InterfaceIdentifier) : Files :=
  if fault = some .database then files
  else
    match persistInterfaceConfig db id with
    | .error _ => files
    | .ok (filename, cfg) => writeFile files fault filename cfg

def handleInterfaceSavedEvent (iface : Interface) : Files :=
  if !iface.saveConfig then files else persist db files fault iface.identifier

def handleInterfaceDeleteEvent (iface : Interface) : Files :=
  if !iface.saveConfig then files else deleteFile files fault (getConfigFileName iface)

/-- What is written for the interface, if anything is -/
def textFor (id : InterfaceIdentifier) : Option String :=
  if fault = some .database then none
  else
    match persistInterfaceConfig db id with
    | .error _ => none
    | .ok (_, cfg) => written fault cfg

end Code

/-- `own` is what was last written for an interface since it is stored. -/
structure State where
  db : Db
  files : Files
  own : InterfaceIdentifier → Option String

/-- Anything else may change the stored interfaces and peers between two events. -/
inductive Event where
  | change (db : Db)
  | saved (iface : Interface) (fault : Option Fault)
  | deleted (iface : Interface) (fault : Option Fault)
  /-- The request of an administrator -/
  | requested (id : InterfaceIdentifier) (fault : Option Fault)

/-- The text is the interface's own one from now on, if there is one. -/
def note (own : InterfaceIdentifier → Option String) (id : InterfaceIdentifier) :
    Option String → InterfaceIdentifier → Option String
  | none => own
  | some text => Function.update own id (some text)

def State.after (s : State) : Event → State
  | .change db =>
    { s with
      db := db
      own := fun id => if (db.interfaces.find id).isSome then s.own id else none }
  | .saved iface fault =>
    { s with
      files := handleInterfaceSavedEvent s.db s.files fault iface
      own :=
        if !iface.saveConfig then s.own
        else note s.own iface.identifier (textFor s.db fault iface.identifier) }
  | .deleted iface fault =>
    { s with
      files := handleInterfaceDeleteEvent s.files fault iface
      own :=
        if !iface.saveConfig then s.own
        else if fault = some .remove then s.own
        else Function.update s.own iface.identifier none }
  | .requested id fault =>
    { s with
      files := persist s.db s.files fault id
      own := note s.own id (textFor s.db fault id) }

def State.next (s : State) (event : Event) : Option State := some (s.after event)

/-- No file was written yet. -/
def State.initial (db : Db) (files : Files) : State := ⟨db, files, fun _ => none⟩

/-- Each stored interface has its own text in its file. -/
def State.Kept (s : State) : Prop :=
  ∀ id i, s.db.getInterface id = .ok i → ∀ text, s.own id = some text →
    s.files (getConfigFileName i) = some text

/-- What the name of the file is made of -/
def stem (id : InterfaceIdentifier) : List Char := (id.toList.filter isFileNameChar).take 16

/-- No other stored interface has the same stem. -/
def Alone (db : Db) (id : InterfaceIdentifier) : Prop :=
  ∀ other ∈ db.interfaces.rows, other.identifier ≠ id → stem other.identifier ≠ stem id

instance (db : Db) (id : InterfaceIdentifier) : Decidable (Alone db id) :=
  inferInstanceAs (Decidable (∀ other ∈ db.interfaces.rows, _))

/-- Files are only written and removed for interfaces that are alone. -/
def guard (s : State) : Event → Prop
  | .change _ => True
  | .saved iface _ | .deleted iface _ => iface.saveConfig = true → Alone s.db iface.identifier
  | .requested id _ => Alone s.db id

instance (s : State) : (event : Event) → Decidable (guard s event)
  | .change _ => isTrue trivial
  | .saved iface _ | .deleted iface _ =>
    inferInstanceAs (Decidable (iface.saveConfig = true → Alone s.db iface.identifier))
  | .requested id _ => inferInstanceAs (Decidable (Alone s.db id))

def fileName (id : InterfaceIdentifier) : String := String.ofList (stem id) ++ ".conf"

/-- Names of files are told apart by their stems. -/
theorem fileName_inj {id id' : InterfaceIdentifier} :
    fileName id = fileName id' ↔ stem id = stem id' := by
  refine ⟨fun same => ?_, fun same => by rw [fileName, same, fileName]⟩
  have list := congrArg String.toList same
  simp only [fileName, String.toList_append, String.toList_ofList] at list
  exact List.append_cancel_right list

theorem textFor_eq_some {db : Db} {fault : Option Fault} {id : InterfaceIdentifier} {text : String}
    (written : textFor db fault id = some text) : ∃ i, db.interfaces.find id = some i := by
  unfold textFor persistInterfaceConfig Db.getInterface at written
  cases stored : db.interfaces.find id with
  | some i => exact ⟨i, rfl⟩
  | none => simp [stored] at written

theorem persist_eq (db : Db) (files : Files) (fault : Option Fault) (id : InterfaceIdentifier) :
    persist db files fault id =
      match textFor db fault id with
      | none => files
      | some text => Function.update files (fileName id) (some text) := by
  unfold persist textFor persistInterfaceConfig Db.getInterface
  by_cases fails : fault = some .database
  · rw [if_pos fails, if_pos fails]
  · rw [if_neg fails, if_neg fails]
    cases stored : db.interfaces.find id with
    | none => rfl
    | some i =>
      have named : getConfigFileName i = fileName id :=
        congrArg fileName (Table.key_of_find stored)
      simp only [writeFile, named]

/-- Each interface with a text of its own is stored and has the text in its file. -/
def Owned (db : Db) (files : Files) (own : InterfaceIdentifier → Option String) : Prop :=
  ∀ id text, own id = some text →
    (∃ i, db.interfaces.find id = some i) ∧ files (fileName id) = some text

section Owned

variable {db : Db} {files : Files} {own : InterfaceIdentifier → Option String}
  {id : InterfaceIdentifier} {fault : Option Fault}

theorem Owned.kept (owned : Owned db files own) : State.Kept ⟨db, files, own⟩ := by
  intro id i stored text mine
  have found : db.interfaces.find id = some i := by
    unfold Db.getInterface at stored
    split at stored
    · rename_i i' found
      exact Except.ok.inj stored ▸ found
    · cases stored
  have named : getConfigFileName i = fileName id := congrArg fileName (Table.key_of_find found)
  rw [named]
  exact (owned id text mine).2

/-- The file and the text of one interface change; the files of the others are not the same. -/
theorem Owned.update (owned : Owned db files own) (alone : Alone db id) {new : Option String}
    (stored : ∀ text, new = some text → ∃ i, db.interfaces.find id = some i) :
    Owned db (Function.update files (fileName id) new) (Function.update own id new) := by
  intro other text mine
  by_cases same : other = id
  · subst same
    rw [Function.update_self] at mine
    rw [Function.update_self]
    exact ⟨stored text mine, mine⟩
  · rw [Function.update_of_ne same] at mine
    obtain ⟨⟨i, found⟩, here⟩ := owned other text mine
    have ne : fileName other ≠ fileName id := by
      obtain rfl := Table.key_of_find found
      exact fun shared => alone i (Table.mem_of_find found) same (fileName_inj.mp shared)
    rw [Function.update_of_ne ne]
    exact ⟨⟨i, found⟩, here⟩

theorem owned_persist (owned : Owned db files own) (alone : Alone db id) :
    Owned db (persist db files fault id) (note own id (textFor db fault id)) := by
  rw [persist_eq]
  cases new : textFor db fault id with
  | none => exact owned
  | some text => exact owned.update alone fun _ _ => textFor_eq_some new

theorem owned_delete (owned : Owned db files own) (alone : Alone db id) :
    Owned db (deleteFile files fault (fileName id))
      (if fault = some .remove then own else Function.update own id none) := by
  unfold deleteFile
  split
  · exact owned
  · exact owned.update alone fun _ none => by cases none

end Owned

theorem owned_next {s t : State} {event : Event} (owned : Owned s.db s.files s.own)
    (allowed : guard s event) (step : s.next event = some t) : Owned t.db t.files t.own := by
  rw [← Option.some.inj step]
  cases event with
  | change db =>
    intro id text own
    dsimp only [State.after] at own
    split at own
    · rename_i stored
      exact ⟨Option.isSome_iff_exists.mp stored, (owned id text own).2⟩
    · cases own
  | saved iface fault =>
    simp only [State.after, handleInterfaceSavedEvent]
    cases saves : iface.saveConfig with
    | false => exact owned
    | true => exact owned_persist owned (allowed saves)
  | deleted iface fault =>
    simp only [State.after, handleInterfaceDeleteEvent]
    cases saves : iface.saveConfig with
    | false => exact owned
    | true => exact owned_delete owned (allowed saves)
  | requested id fault => exact owned_persist owned allowed

/-- Each stored interface has its own text in its file, as long as files are only written and
removed for interfaces that do not share their stem with another one. -/
theorem guarded_run_kept {db : Db} {files : Files} {events : List Event} {t : State}
    (guarded : Guarded State.next guard (State.initial db files) events)
    (run : runFrom State.next (State.initial db files) events = some t) : t.Kept := by
  have start : Owned db files fun _ => none := fun id text own => by cases own
  have keeps : ∀ s event s', Owned s.db s.files s.own → guard s event → s.next event = some s' →
      Owned s'.db s'.files s'.own := fun _ _ _ owned allowed => owned_next owned allowed
  exact (run_invariant keeps guarded run start).kept

def autosaved (id : InterfaceIdentifier) : Interface :=
  { Interface.zero with identifier := id, saveConfig := true }

def dbOf (ids : List InterfaceIdentifier) (nodup : ids.Nodup) : Db :=
  { Db.empty with
    interfaces := ⟨ids.map autosaved, by
      rw [List.map_map]
      exact (List.map_id ids).symm ▸ nodup⟩ }

/-- Both interfaces are saved, and the second one is deleted. -/
def savedAndDeleted (id other : InterfaceIdentifier) (ne : id ≠ other) : List Event :=
  [.change (dbOf [id, other] (by simpa using ne)), .saved (autosaved id) none,
    .saved (autosaved other) none, .change (dbOf [id] (by simp)), .deleted (autosaved other) none]

/-- The second interface has a file of its own. -/
theorem ordinaryNames_kept :
    ∃ t, runFrom State.next (State.initial Db.empty fun _ => none)
        (savedAndDeleted "wg0" "wg1" (by decide)) = some t ∧
      (t.own "wg0").isSome ∧ t.Kept := by
  have guarded : Guarded State.next guard (State.initial Db.empty fun _ => none)
      (savedAndDeleted "wg0" "wg1" (by decide)) := by decide +kernel
  exact ⟨_, rfl, by decide +kernel, guarded_run_kept guarded rfl⟩

/-- The names of the files leave out the character that tells the interfaces apart, and the file
of the one that is left is removed. -/
theorem sharedName_removed :
    getConfigFileName (autosaved "wg0") = getConfigFileName (autosaved "wg.0") ∧
      ∃ t, runFrom State.next (State.initial Db.empty fun _ => none)
          (savedAndDeleted "wg0" "wg.0" (by decide)) = some t ∧
        (t.own "wg0").isSome ∧ t.files "wg0.conf" = none ∧ ¬ t.Kept := by
  have lost : ∀ t : State, t.db.getInterface "wg0" = .ok (autosaved "wg0") →
      (t.own "wg0").isSome → t.files "wg0.conf" = none → ¬ t.Kept := by
    intro t stored saved removed kept
    obtain ⟨text, own⟩ := Option.isSome_iff_exists.mp saved
    have here := kept "wg0" _ stored text own
    rw [show getConfigFileName (autosaved "wg0") = "wg0.conf" by decide, removed] at here
    cases here
  have saved : ((savedAndDeleted "wg0" "wg.0" (by decide)).foldl State.after
      (State.initial Db.empty fun _ => none)).own "wg0" |>.isSome := by decide +kernel
  exact ⟨by decide, _, rfl, saved, rfl, lost _ rfl saved rfl⟩

end WgPortal.ConfigFile.FileNames
