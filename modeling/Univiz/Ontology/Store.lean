import Univiz.Data.Exclusion
import Univiz.Ontology.Rows

namespace Univiz.Ontology

open Univiz.Data

/-! The calls that write ontologies.

Every endpoint call is a transaction of its own, one statement after the other, at the
isolation level READ COMMITTED.  A session has a row as it was first read for as long as
something holds the object of the row.  An UPDATE waits for the transaction that holds its
row and holds the row until the end of its own; what it sets was decided from the object.
An INSERT is seen by nobody before its commit, and stands for both here. -/

inductive Call where
  | updateOntology (id : Nat) (request : OntologyUpdateRequest)
  | importOntology (id : Option Nat) (request : OntologyImportRequest)
  | createNewVersion (id : Nat)
  | publishOntology (id : Nat) (force : Bool)
deriving DecidableEq

inductive Outcome where
  | done
  | noChanges
  | notFound (detail : String)
  | conflict (detail : String)
  | unprocessable (detail : String)
  | rolledBack
deriving DecidableEq, Repr

/-- A call by its next statement, with what it has read.  A publish without `force`
also has the latest published rows of its schema as they were when it began. -/
inductive Session where
  | begun (call : Call) (latest : List OntologyRow)
  | drafting (source : OntologyRow)
  | numbering (row : OntologyRow)
  | inserting (row : OntologyRow)
  | comparing (draft : OntologyRow) (latest : List OntologyRow)
  | updating (loaded : OntologyRow) (write : Write) (latest : Option (List OntologyRow))
  | updated (loaded : OntologyRow) (write : Write) (latest : Option (List OntologyRow))
  | ended (outcome : Outcome)
deriving DecidableEq

/-- A publish without `force` that has committed: the row, and the latest published rows
of its schema as they were when it began. -/
structure Publication where
  row : OntologyRow
  latest : List OntologyRow
deriving DecidableEq

structure OntologyStore where
  rows : List OntologyRow
  sessions : List Session
  publications : List Publication

/-- A table whose primary key and whose versions are distinct. -/
structure OntologyTable where
  rows : List OntologyRow
  keyed : (rows.map OntologyRow.id).Nodup
  versioned : rows.Pairwise fun row other =>
    row.schemaId = other.schemaId → row.version ≠ other.version

def findRow (rows : List OntologyRow) (id : Nat) : Option OntologyRow :=
  rows.find? fun row => row.id = id

/-- `SELECT … WHERE schema_id = …`. -/
def inSchema (rows : List OntologyRow) (schema : Nat) : List OntologyRow :=
  rows.filter fun row => row.schemaId = some schema

def maxVersion (rows : List OntologyRow) (schema : Nat) : Nat :=
  ((inSchema rows schema).map OntologyRow.version).foldl max 0

/-- The published rows of the schema with the highest version. -/
def latestPublished (rows : List OntologyRow) (schema : Nat) : List OntologyRow :=
  let published := (inSchema rows schema).filter OntologyRow.isPublished
  published.filter fun row => published.all fun other => other.version ≤ row.version

/-- An identity that no row has and no schema. -/
def freshId (rows : List OntologyRow) : Nat :=
  (rows.map fun row => max row.id row.schema).foldl max 0 + 1

section

variable {rows : List OntologyRow} {row : OntologyRow} {schema : Nat}

theorem le_foldl_max {numbers : List Nat} {bound number : Nat} (member : number ∈ numbers) :
    number ≤ numbers.foldl max bound := by
  have grows : ∀ (numbers : List Nat) (bound : Nat), bound ≤ numbers.foldl max bound := by
    intro numbers
    induction numbers with
    | nil => exact fun bound => Nat.le_refl bound
    | cons first rest ih => exact fun bound => Nat.le_trans (Nat.le_max_left _ _) (ih _)
  induction numbers generalizing bound with
  | nil => cases member
  | cons first rest ih =>
      rcases List.mem_cons.mp member with rfl | later
      · exact Nat.le_trans (Nat.le_max_right _ _) (grows rest _)
      · exact ih later

theorem le_maxVersion (member : row ∈ rows) (belongs : row.schemaId = some schema) :
    row.version ≤ maxVersion rows schema := by
  apply le_foldl_max
  exact List.mem_map_of_mem (List.mem_filter.mpr ⟨member, by simp [belongs]⟩)

theorem lt_freshId (member : row ∈ rows) : row.id < freshId rows ∧ row.schema < freshId rows := by
  have bound : max row.id row.schema ≤
      (rows.map fun row => max row.id row.schema).foldl max 0 :=
    le_foldl_max (List.mem_map_of_mem member)
  simp only [freshId]
  omega

end

def removedEntities (row previous : OntologyRow) : List String :=
  previous.entityTypes.filter fun type => type ∉ row.entityTypes

def removedRelationships (row previous : OntologyRow) : List String :=
  previous.relationshipTypes.filter fun type => type ∉ row.relationshipTypes

def hasBreaking (row previous : OntologyRow) : Bool :=
  removedEntities row previous ≠ [] || removedRelationships row previous ≠ []

def notFoundText (id : Nat) : String := "Ontology '" ++ toString id ++ "' not found"

def loadForUpdate (id : Nat) (request : OntologyUpdateRequest) : Option OntologyRow → Session
  | none => .ended (.notFound (notFoundText id))
  | some row =>
      if row.isPublished && !request.isMetadataOnly then .numbering (request.newVersion row)
      else .updating row (request.write row) none

def loadForImport (id : Nat) (request : OntologyImportRequest) : Option OntologyRow → Session
  | none => .ended (.unprocessable (notFoundText id))
  | some row =>
      if row.deleted then
        .ended (.unprocessable "Cannot import into a deleted semantic layer. Restore it first.")
      else if row.isSystem then
        .ended (.unprocessable "Cannot import into a system semantic layer. Clone it first.")
      else if !request.changed row then .ended .noChanges
      else if row.isPublished then .numbering (request.newRow (some row.schema))
      else .updating row (request.write row) none

def loadForNewVersion (id : Nat) : Option OntologyRow → Session
  | none => .ended (.notFound (notFoundText id))
  | some source =>
      if !source.isPublished && !source.isSystem then
        .ended (.conflict
          ("Only published or system ontologies can spawn new versions. " ++
            "Edit the existing draft instead."))
      else .drafting source

def publishWrite : Write := { isPublished := true }

def loadForPublish (id : Nat) (force : Bool) (latest : List OntologyRow) :
    Option OntologyRow → Session
  | none => .ended (.notFound (notFoundText id))
  | some row =>
      if force then .updating row publishWrite none
      else if row.isPublished then .ended (.conflict "Ontology is already published.")
      else .comparing row latest

def load (rows : List OntologyRow) (latest : List OntologyRow) : Call → Session
  | .updateOntology id request => loadForUpdate id request (findRow rows id)
  | .importOntology none request => .inserting { request.newRow none with version := 1 }
  | .importOntology (some id) request => loadForImport id request (findRow rows id)
  | .createNewVersion id => loadForNewVersion id (findRow rows id)
  | .publishOntology id force => loadForPublish id force latest (findRow rows id)

theorem findRow_mem {rows : List OntologyRow} {row : OntologyRow} {id : Nat}
    (found : findRow rows id = some row) : row ∈ rows ∧ row.id = id := by
  refine ⟨List.mem_of_find?_eq_some found, ?_⟩
  simpa using List.find?_some found

/-- What a call does after it has read its row. -/
inductive Loaded (rows latest : List OntologyRow) : Session → Prop where
  | ended (outcome : Outcome) : Loaded rows latest (.ended outcome)
  | numbering (row source : OntologyRow) (member : source ∈ rows)
      (belongs : row.schemaId = some source.schema) (draft : row.isPublished = false) :
      Loaded rows latest (.numbering row)
  | inserting (row : OntologyRow) (own : row.schemaId = none) (draft : row.isPublished = false) :
      Loaded rows latest (.inserting row)
  | drafting (source : OntologyRow) (member : source ∈ rows) : Loaded rows latest (.drafting source)
  | comparing (draft : OntologyRow) (member : draft ∈ rows) :
      Loaded rows latest (.comparing draft latest)
  | updating (row : OntologyRow) (write : Write) (member : row ∈ rows)
      (draft : write.content ≠ {} → row.isPublished = false) :
      Loaded rows latest (.updating row write none)

theorem load_loaded (rows latest : List OntologyRow) (call : Call) :
    Loaded rows latest (load rows latest call) := by
  cases call with
  | updateOntology id request =>
      simp only [load]
      simp only [loadForUpdate]
      split
      · exact .ended _
      · rename_i row found
        split
        · exact .numbering _ row (findRow_mem found).1 rfl rfl
        · rename_i draft
          refine .updating row _ (findRow_mem found).1 fun touches => ?_
          have given : request.content ≠ {} := by
            intro empty
            rw [OntologyUpdateRequest.write, empty, ContentUpdate.changes_empty] at touches
            exact touches rfl
          simpa [OntologyUpdateRequest.isMetadataOnly, given] using draft
  | importOntology target request =>
      cases target with
      | none => exact .inserting _ rfl rfl
      | some id =>
          simp only [load]
          simp only [loadForImport]
          split
          · exact .ended _
          · rename_i row found
            split
            · exact .ended _
            · split
              · exact .ended _
              · split
                · exact .ended _
                · split
                  · exact .numbering _ row (findRow_mem found).1 rfl rfl
                  · rename_i draft
                    exact .updating row _ (findRow_mem found).1
                      fun _ => Bool.eq_false_of_not_eq_true draft
  | createNewVersion id =>
      simp only [load]
      simp only [loadForNewVersion]
      split
      · exact .ended _
      · rename_i source found
        split
        · exact .ended _
        · exact .drafting source (findRow_mem found).1
  | publishOntology id force =>
      simp only [load]
      simp only [loadForPublish]
      split
      · exact .ended _
      · rename_i row found
        split
        · exact .updating row _ (findRow_mem found).1 fun touches => absurd rfl touches
        · split
          · exact .ended _
          · exact .comparing row (findRow_mem found).1

/-- The row of `create_new_version_from_source` but for its version and identity. -/
def newVersionOf (source : OntologyRow) : OntologyRow :=
  { source with
    id := 0
    schemaId := some source.schema
    version := 0
    isPublished := false
    isSystem := false
    deleted := false }

/-- The versions that `get_draft_for_schema` looks at. -/
def draftVersions (rows : List OntologyRow) (schema : Nat) : List Nat :=
  ((inSchema rows schema).filter fun row => !row.isPublished && !row.deleted).map
    OntologyRow.version

def findDraft (rows : List OntologyRow) (source : OntologyRow) : Session :=
  match draftVersions rows source.schema with
  | [] => .numbering (newVersionOf source)
  | version :: rest =>
      .ended (.conflict ("A draft version (v" ++ toString (rest.foldl max version) ++
        ") already exists for this schema. Edit it instead."))

def readMax (rows : List OntologyRow) (row : OntologyRow) : Session :=
  .inserting { row with version := maxVersion rows row.schema + 1 }

/-- The answer of `get_ontology_impact` to a comparison with the row that it has read. -/
def allowed (draft : OntologyRow) : Option OntologyRow → Bool
  | none => true
  | some previous => !(hasBreaking draft previous && draft.evolutionPolicy = .reject)

def blockedText (draft previous : OntologyRow) : String :=
  "Evolution policy is 'reject' and publishing would remove " ++
    toString (removedEntities draft previous).length ++ " entity type(s) and " ++
    toString (removedRelationships draft previous).length ++ " relationship type(s). " ++
    "Change the evolution_policy to 'deprecate' or 'migrate', or restore the removed types."

/-- What a session that holds the object of the draft has of a row that it reads. -/
def asHeld (draft row : OntologyRow) : OntologyRow := if row.id = draft.id then draft else row

def compare (draft : OntologyRow) (latest : List OntologyRow) (previous : Option OntologyRow) :
    Session :=
  if allowed draft previous then .updating draft publishWrite (some latest)
  else .ended (.conflict (blockedText draft (previous.getD draft)))

inductive Event where
  | call (call : Call)
  | load (session : Nat)
  | findDraft (session : Nat)
  | readMax (session : Nat)
  | compare (session : Nat) (previous : Option OntologyRow)
  | flush (session : Nat)
  | commit (session : Nat)
  | rollback (session : Nat)
deriving DecidableEq

def Session.locks : Session → Option Nat
  | .updated loaded _ _ => some loaded.id
  | _ => none

def Session.isOpen : Session → Bool
  | .ended _ => false
  | _ => true

namespace OntologyStore

variable (store : OntologyStore)

def start (table : OntologyTable) : OntologyStore := ⟨table.rows, [], []⟩

def setSession (id : Nat) (session : Session) : OntologyStore :=
  { store with sessions := store.sessions.set id session }

/-- The latest published rows of the schema of a row. -/
def latestFor (id : Nat) : List OntologyRow :=
  match findRow store.rows id with
  | none => []
  | some row => latestPublished store.rows row.schema

def begins : Call → Session
  | .publishOntology id force => .begun (.publishOntology id force) (store.latestFor id)
  | call => .begun call []

/-- Every row is identified by a fresh number, and the first version starts its schema. -/
def inserted (row : OntologyRow) : OntologyRow :=
  let id := freshId store.rows
  { row with id := id, schemaId := some (row.schemaId.getD id) }

def insert (row : OntologyRow) : OntologyStore :=
  { store with rows := store.rows ++ [store.inserted row] }

def update (id : Nat) (write : Write) : OntologyStore :=
  { store with rows := store.rows.map fun row => if row.id = id then write.apply row else row }

def publish (id : Nat) : Option (List OntologyRow) → OntologyStore
  | none => store
  | some latest =>
      { store with
        publications :=
          store.publications ++ (findRow store.rows id).toList.map fun row => ⟨row, latest⟩ }

/-- The row that `ORDER BY version DESC LIMIT 1` returns is one of those with the highest
version. -/
def returnsLatest (schema : Nat) : Option OntologyRow → Bool
  | none => latestPublished store.rows schema = []
  | some row => row ∈ latestPublished store.rows schema

def unlocked (id : Nat) : Bool := store.sessions.all fun session => session.locks ≠ some id

def commit (id : Nat) : Session → Option OntologyStore
  | .inserting row => some ((store.insert row).setSession id (.ended .done))
  | .updated loaded write latest =>
      some (((store.update loaded.id write).publish loaded.id latest).setSession id (.ended .done))
  | _ => none

def step : Event → Option OntologyStore
  | .call call => some { store with sessions := store.sessions ++ [store.begins call] }
  | .load id =>
      match store.sessions[id]? with
      | some (.begun call latest) => some (store.setSession id (load store.rows latest call))
      | _ => none
  | .findDraft id =>
      match store.sessions[id]? with
      | some (.drafting source) => some (store.setSession id (findDraft store.rows source))
      | _ => none
  | .readMax id =>
      match store.sessions[id]? with
      | some (.numbering row) => some (store.setSession id (readMax store.rows row))
      | _ => none
  | .compare id previous =>
      match store.sessions[id]? with
      | some (.comparing draft latest) =>
          if store.returnsLatest draft.schema previous then
            some (store.setSession id (compare draft latest (previous.map (asHeld draft))))
          else none
      | _ => none
  | .flush id =>
      match store.sessions[id]? with
      | some (.updating loaded write latest) =>
          if store.unlocked loaded.id then
            some (store.setSession id (.updated loaded write latest))
          else none
      | _ => none
  | .commit id => store.sessions[id]?.bind (store.commit id)
  | .rollback id =>
      store.sessions[id]?.bind fun session =>
        if session.isOpen then some (store.setSession id (.ended .rolledBack)) else none

/-- A statement that is not the commit of a write: what it makes of its session. -/
inductive Moves (store : OntologyStore) (id : Nat) : Event → Session → Session → Prop where
  | load (call : Call) (latest : List OntologyRow) :
      Moves store id (.load id) (.begun call latest) (Ontology.load store.rows latest call)
  | findDraft (source : OntologyRow) :
      Moves store id (.findDraft id) (.drafting source) (Ontology.findDraft store.rows source)
  | readMax (row : OntologyRow) :
      Moves store id (.readMax id) (.numbering row) (Ontology.readMax store.rows row)
  | compare (draft : OntologyRow) (latest : List OntologyRow) (previous : Option OntologyRow)
      (returned : store.returnsLatest draft.schema previous = true) :
      Moves store id (.compare id previous) (.comparing draft latest)
        (Ontology.compare draft latest (previous.map (asHeld draft)))
  | flush (loaded : OntologyRow) (write : Write) (latest : Option (List OntologyRow))
      (unlocked : store.unlocked loaded.id = true) :
      Moves store id (.flush id) (.updating loaded write latest) (.updated loaded write latest)
  | rollback (session : Session) :
      Moves store id (.rollback id) session (.ended .rolledBack)

variable {store} {next : OntologyStore} {event : Event}

theorem step_cases (stepped : store.step event = some next) :
    (∃ call, event = .call call ∧
        next = { store with sessions := store.sessions ++ [store.begins call] }) ∨
      (∃ id session new, store.sessions[id]? = some session ∧ Moves store id event session new ∧
        next = store.setSession id new) ∨
      (∃ id row, event = .commit id ∧ store.sessions[id]? = some (.inserting row) ∧
        next = (store.insert row).setSession id (.ended .done)) ∨
      ∃ id loaded write latest, event = .commit id ∧
        store.sessions[id]? = some (.updated loaded write latest) ∧
        next = ((store.update loaded.id write).publish loaded.id latest).setSession id
          (.ended .done) := by
  cases event with
  | call call =>
      cases stepped
      exact .inl ⟨call, rfl, rfl⟩
  | load id =>
      simp only [step] at stepped
      split at stepped
      · rename_i found
        cases stepped
        exact .inr (.inl ⟨id, _, _, found, .load _ _, rfl⟩)
      · cases stepped
  | findDraft id =>
      simp only [step] at stepped
      split at stepped
      · rename_i found
        cases stepped
        exact .inr (.inl ⟨id, _, _, found, .findDraft _, rfl⟩)
      · cases stepped
  | readMax id =>
      simp only [step] at stepped
      split at stepped
      · rename_i found
        cases stepped
        exact .inr (.inl ⟨id, _, _, found, .readMax _, rfl⟩)
      · cases stepped
  | compare id previous =>
      simp only [step] at stepped
      split at stepped
      · rename_i found
        split at stepped
        · rename_i returned
          cases stepped
          exact .inr (.inl ⟨id, _, _, found, .compare _ _ _ returned, rfl⟩)
        · cases stepped
      · cases stepped
  | flush id =>
      simp only [step] at stepped
      split at stepped
      · rename_i found
        split at stepped
        · rename_i unlocked
          cases stepped
          exact .inr (.inl ⟨id, _, _, found, .flush _ _ _ unlocked, rfl⟩)
        · cases stepped
      · cases stepped
  | commit id =>
      obtain ⟨session, found, committed⟩ := Option.bind_eq_some_iff.mp stepped
      simp only [commit] at committed
      split at committed
      · cases committed
        exact .inr (.inr (.inl ⟨id, _, rfl, found, rfl⟩))
      · cases committed
        exact .inr (.inr (.inr ⟨id, _, _, _, rfl, found, rfl⟩))
      · cases committed
  | rollback id =>
      obtain ⟨session, found, ended⟩ := Option.bind_eq_some_iff.mp stepped
      split at ended
      · cases ended
        exact .inr (.inl ⟨id, _, _, found, .rollback session, rfl⟩)
      · cases ended

/-- No row is held by two sessions. -/
def Exclusive (store : OntologyStore) : Prop :=
  Mutually (fun session other => ∀ id, session.locks = some id → other.locks ≠ some id)
    store.sessions

variable {id : Nat} {session new : Session}

theorem Exclusive.setUnlocked (exclusive : store.Exclusive) (unlocked : new.locks = none) :
    Mutually (fun session other => ∀ id, session.locks = some id → other.locks ≠ some id)
      (store.sessions.set id new) := by
  refine exclusive.set ?_ ?_
  · intro j other _ _ held locks
    rw [unlocked] at locks
    cases locks
  · intro j other _ _ held _ locks
    rw [unlocked] at locks
    cases locks

theorem Moves.locks (moves : Moves store id event session new) :
    new.locks = none ∨ ∃ loaded write latest, session = .updating loaded write latest ∧
      new = .updated loaded write latest ∧ store.unlocked loaded.id = true := by
  cases moves with
  | load call latest =>
      refine .inl ?_
      have loaded := load_loaded store.rows latest call
      generalize Ontology.load store.rows latest call = new at loaded
      cases loaded <;> rfl
  | findDraft source =>
      simp only [Ontology.findDraft]
      split <;> exact .inl rfl
  | readMax row => exact .inl rfl
  | compare draft latest previous returned =>
      simp only [Ontology.compare]
      split <;> exact .inl rfl
  | flush loaded write latest unlocked => exact .inr ⟨loaded, write, latest, rfl, rfl, unlocked⟩
  | rollback session => exact .inl rfl

theorem begins_locks (call : Call) : (store.begins call).locks = none := by
  simp only [begins]
  split <;> rfl

theorem mem_update {row : OntologyRow} {write : Write} : row ∈ (store.update id write).rows ↔
    ∃ old ∈ store.rows, row = if old.id = id then write.apply old else old := by
  simp [update, eq_comm]

@[simp] theorem rows_publish {latest : Option (List OntologyRow)} :
    (store.publish id latest).rows = store.rows := by
  cases latest <;> rfl

@[simp] theorem sessions_publish {latest : Option (List OntologyRow)} :
    (store.publish id latest).sessions = store.sessions := by
  cases latest <;> rfl

theorem Exclusive.step (exclusive : store.Exclusive) (stepped : store.step event = some next) :
    next.Exclusive := by
  rcases step_cases stepped with ⟨call, rfl, rfl⟩ | ⟨id, session, new, found, moves, rfl⟩ |
    ⟨id, row, rfl, found, rfl⟩ | ⟨id, loaded, write, latest, rfl, found, rfl⟩
  · refine exclusive.concat ?_ ?_
    · intro other _ held locks
      rw [begins_locks] at locks
      cases locks
    · intro other _ held _ locks
      rw [begins_locks] at locks
      cases locks
  · rcases moves.locks with unlocked | ⟨loaded, write, latest, rfl, rfl, unlocked⟩
    · exact exclusive.setUnlocked unlocked
    · have alone : ∀ other ∈ store.sessions, other.locks ≠ some loaded.id := by
        intro other member
        simpa using List.all_eq_true.mp unlocked other member
      refine exclusive.set ?_ ?_
      · intro j other _ found' held locks locks'
        exact alone other (List.mem_of_getElem? found') (locks'.trans locks.symm)
      · intro j other _ found' held locks' locks
        exact alone other (List.mem_of_getElem? found') (locks'.trans locks.symm)
  · exact exclusive.setUnlocked rfl
  · have kept : ((store.update loaded.id write).publish loaded.id latest).sessions =
        store.sessions := sessions_publish
    unfold Exclusive OntologyStore.setSession
    rw [kept]
    exact exclusive.setUnlocked rfl

/-- The commit of an UPDATE leaves the rows that other sessions hold as they were. -/
theorem Exclusive.committed_cases (exclusive : store.Exclusive) {loaded : OntologyRow}
    {write : Write} {latest : Option (List OntologyRow)}
    (found : store.sessions[id]? = some (.updated loaded write latest))
    (member : session ∈ (((store.update loaded.id write).publish loaded.id latest).setSession id
      (.ended .done)).sessions) :
    session = .ended .done ∨ session ∈ store.sessions ∧ ∀ held, session.locks = some held →
      ∀ row ∈ (store.update loaded.id write).rows, row.id = held → row ∈ store.rows := by
  obtain ⟨j, lookup⟩ := List.mem_iff_getElem?.mp member
  simp only [OntologyStore.setSession, sessions_publish] at lookup
  rcases getElem?_set_cases lookup with ⟨-, rfl⟩ | ⟨apart, found'⟩
  · exact .inl rfl
  · refine .inr ⟨List.mem_of_getElem? found', ?_⟩
    intro held locks later member mine
    obtain ⟨row, old, rfl⟩ := mem_update.mp member
    have spared : row.id ≠ loaded.id := by
      intro equal
      rw [(write.rewrite_keeps loaded.id row).2.2, equal] at mine
      exact exclusive id j _ session found found' apart loaded.id rfl (mine ▸ locks)
    rwa [if_neg spared]

end OntologyStore

end Univiz.Ontology
