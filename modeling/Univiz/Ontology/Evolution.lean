import Univiz.Ontology.Store

namespace Univiz.Ontology

open Univiz.Data

/-! When a published ontology has all types of the version that it follows. -/

variable {rows : List OntologyRow} {row previous loaded draft : OntologyRow} {id : Nat}

def OntologyRow.Includes (row previous : OntologyRow) : Prop :=
  previous.entityTypes ⊆ row.entityTypes ∧ previous.relationshipTypes ⊆ row.relationshipTypes

instance (row previous : OntologyRow) : Decidable (row.Includes previous) :=
  inferInstanceAs (Decidable (_ ∧ _))

theorem OntologyRow.Includes.trans (includes : row.Includes loaded)
    (includes' : loaded.Includes previous) : row.Includes previous :=
  ⟨List.Subset.trans includes'.1 includes.1, List.Subset.trans includes'.2 includes.2⟩

theorem includes_iff : row.Includes previous ↔ hasBreaking row previous = false := by
  simp [OntologyRow.Includes, hasBreaking, removedEntities, removedRelationships,
    List.filter_eq_nil_iff, List.subset_def]

def Publication.Evolves (publication : Publication) : Prop :=
  publication.row.evolutionPolicy = .reject →
    ∀ previous ∈ publication.latest, publication.row.Includes previous

/-- What the guard reads has the types of the version that was the latest at the begin. -/
def Session.ComparesLatest (read : Option OntologyRow) : Session → Prop
  | .comparing draft latest =>
      draft.evolutionPolicy = .reject →
        ∀ row ∈ latest, ∃ previous ∈ read.map (asHeld draft), previous.Includes row
  | _ => True

/-- The row that is to be published has the policy and the types that the guard has seen. -/
def Session.StillVetted (rows : List OntologyRow) : Session → Prop
  | .updating loaded _ (some _) =>
      ∀ row ∈ rows, row.id = loaded.id → row.evolutionPolicy = .reject →
        loaded.evolutionPolicy = .reject ∧ row.Includes loaded
  | _ => True

def Present (rows : List OntologyRow) (id : Nat) : Prop := ∃ row ∈ rows, row.id = id

/-- What a session in progress has made sure of. -/
def Session.Vetted (rows : List OntologyRow) : Session → Prop
  | .comparing draft _ => Present rows draft.id
  | .updating loaded write (some latest) =>
      Present rows loaded.id ∧ write = publishWrite ∧
        (loaded.evolutionPolicy = .reject → ∀ previous ∈ latest, loaded.Includes previous)
  | .updated loaded write (some latest) =>
      Present rows loaded.id ∧ write = publishWrite ∧
        ∀ row ∈ rows, row.id = loaded.id → row.evolutionPolicy = .reject →
          ∀ previous ∈ latest, row.Includes previous
  | _ => True

namespace OntologyStore

variable {store next : OntologyStore} {event : Event} {session new : Session} {write : Write}
  {latest : Option (List OntologyRow)}

/-- Nothing gets between the guard of a publish and what it has to guard. -/
def Undisturbed (store : OntologyStore) : Event → Prop
  | .compare id previous => ∀ session ∈ store.sessions[id]?, session.ComparesLatest previous
  | .flush id => ∀ session ∈ store.sessions[id]?, session.StillVetted store.rows
  | .call _ | .load _ | .findDraft _ | .readMax _ | .commit _ | .rollback _ => True

structure Evolving (store : OntologyStore) : Prop where
  exclusive : store.Exclusive
  sessions : ∀ session ∈ store.sessions, session.Vetted store.rows
  publications : ∀ publication ∈ store.publications, publication.Evolves

theorem begins_vetted (store : OntologyStore) (call : Call) :
    (store.begins call).Vetted store.rows := by
  unfold begins
  split <;> trivial

theorem Moves.vetted (moves : Moves store id event session new)
    (found : store.sessions[id]? = some session) (vetted : session.Vetted store.rows)
    (undisturbed : store.Undisturbed event) : new.Vetted store.rows := by
  cases moves with
  | load call latest =>
      have loaded := load_loaded store.rows latest call
      generalize Ontology.load store.rows latest call = new at loaded
      cases loaded with
      | comparing draft member => exact ⟨draft, member, rfl⟩
      | ended outcome => trivial
      | numbering row source member belongs draft => trivial
      | inserting row own draft => trivial
      | drafting source member => trivial
      | updating row write member => trivial
  | findDraft source =>
      unfold Ontology.findDraft
      split <;> trivial
  | readMax row => trivial
  | compare draft latest previous returned =>
      have compares := undisturbed _ found
      unfold Ontology.compare
      split
      · rename_i permitted
        refine ⟨vetted, rfl, ?_⟩
        intro reject row member
        obtain ⟨read, held, includes⟩ := compares reject row member
        rw [Option.mem_def.mp held] at permitted
        have kept : draft.Includes read := by
          rw [includes_iff]
          simpa [allowed, reject] using permitted
        exact kept.trans includes
      · trivial
  | flush loaded write latest unlocked =>
      have still := undisturbed _ found
      cases latest with
      | none => trivial
      | some latest =>
          obtain ⟨present, same, includes⟩ := vetted
          refine ⟨present, same, ?_⟩
          intro row member mine reject previous old
          obtain ⟨reject', kept⟩ := still row member mine reject
          exact kept.trans (includes reject' previous old)
  | rollback session => trivial

theorem Present.mono {later : List OntologyRow} (present : Present rows id)
    (kept : ∀ row ∈ rows, ∃ after ∈ later, after.id = row.id) : Present later id := by
  obtain ⟨row, member, rfl⟩ := present
  exact kept row member

/-- A session stays vetted while rows keep their identities and the row that it holds is
as it was. -/
theorem vetted_mono {later : List OntologyRow} (vetted : session.Vetted rows)
    (kept : ∀ row ∈ rows, ∃ after ∈ later, after.id = row.id)
    (held : ∀ id, session.locks = some id → Present rows id →
      ∀ row ∈ later, row.id = id → row ∈ rows) : session.Vetted later := by
  cases session with
  | comparing draft latest => exact Present.mono vetted kept
  | updating loaded write latest =>
      cases latest with
      | none => trivial
      | some latest => exact ⟨Present.mono vetted.1 kept, vetted.2⟩
  | updated loaded write latest =>
      cases latest with
      | none => trivial
      | some latest =>
          obtain ⟨present, same, includes⟩ := vetted
          refine ⟨Present.mono present kept, same, ?_⟩
          intro row member mine
          exact includes row (held loaded.id rfl present row member mine) mine
  | begun call latest => trivial
  | drafting source => trivial
  | numbering row => trivial
  | inserting row => trivial
  | ended outcome => trivial

theorem Evolving.insert (evolving : store.Evolving)
    (exclusive : ((store.insert row).setSession id (.ended .done)).Exclusive) :
    ((store.insert row).setSession id (.ended .done)).Evolving where
  exclusive := exclusive
  sessions session member := by
    rcases List.mem_or_eq_of_mem_set member with old | rfl
    · apply vetted_mono (evolving.sessions session old)
      · intro row member
        exact ⟨row, List.mem_append_left _ member, rfl⟩
      · intro id _ present later member mine
        rcases List.mem_append.mp member with old | added
        · exact old
        · obtain ⟨known, member, rfl⟩ := present
          have below := (lt_freshId member).1
          rw [List.mem_singleton.mp added] at mine
          exact absurd mine (Nat.ne_of_gt below)
    · trivial
  publications := evolving.publications

theorem Evolving.update (evolving : store.Evolving)
    (exclusive : (((store.update loaded.id write).publish loaded.id latest).setSession id
      (.ended .done)).Exclusive)
    (found : store.sessions[id]? = some (.updated loaded write latest)) :
    (((store.update loaded.id write).publish loaded.id latest).setSession id
      (.ended .done)).Evolving := by
  have kept := write.rewrite_keeps loaded.id
  have rows : (((store.update loaded.id write).publish loaded.id latest).setSession id
      (.ended .done)).rows = (store.update loaded.id write).rows := rows_publish
  refine ⟨exclusive, ?_, ?_⟩
  · intro session member
    rw [rows]
    rcases evolving.exclusive.committed_cases found member with rfl | ⟨old, spared⟩
    · trivial
    · apply vetted_mono (evolving.sessions session old)
      · intro row member
        exact ⟨_, mem_update.mpr ⟨row, member, rfl⟩, (kept row).2.2⟩
      · intro held locks _ later member mine
        exact spared held locks later member mine
  · intro publication member
    cases latest with
    | none => exact evolving.publications publication member
    | some latest =>
        rcases List.mem_append.mp member with old | added
        · exact evolving.publications publication old
        · obtain ⟨row, found', rfl⟩ := List.mem_map.mp added
          obtain ⟨member, mine⟩ := findRow_mem (Option.mem_toList.mp found')
          obtain ⟨before, old, rfl⟩ := mem_update.mp member
          obtain ⟨-, rfl, includes⟩ := evolving.sessions _ (List.mem_of_getElem? found)
          rw [(kept before).2.2] at mine
          rw [if_pos mine]
          exact includes before old mine

theorem Evolving.step (evolving : store.Evolving) (undisturbed : store.Undisturbed event)
    (stepped : store.step event = some next) : next.Evolving := by
  have exclusive := evolving.exclusive.step stepped
  rcases step_cases stepped with ⟨call, rfl, rfl⟩ | ⟨id, session, new, found, moves, rfl⟩ |
    ⟨id, row, rfl, found, rfl⟩ | ⟨id, loaded, write, latest, rfl, found, rfl⟩
  · refine ⟨exclusive, ?_, evolving.publications⟩
    intro session member
    rcases List.mem_append.mp member with old | added
    · exact evolving.sessions session old
    · rw [List.mem_singleton.mp added]
      exact store.begins_vetted call
  · refine ⟨exclusive, ?_, evolving.publications⟩
    intro other member
    rcases List.mem_or_eq_of_mem_set member with old | rfl
    · exact evolving.sessions other old
    · have vetted := evolving.sessions session (List.mem_of_getElem? found)
      exact moves.vetted found vetted undisturbed
  · exact evolving.insert exclusive
  · exact evolving.update exclusive found

/-- In a run in which nothing gets between the guard of a publish and what it guards, a
row that is published with the policy `reject` has all types of the latest version that
was published when its publish began. -/
theorem publications_evolve (table : OntologyTable) (events : List Event) (last : OntologyStore)
    (undisturbed : Meets step Undisturbed (start table) events)
    (ran : run step (start table) events = some last) :
    ∀ publication ∈ last.publications, publication.Evolves := by
  have evolving : last.Evolving := by
    apply run_invariant Evolving _ _ undisturbed ran
    · intro store event next evolving undisturbed stepped
      exact evolving.step undisturbed stepped
    · refine ⟨.nil, ?_, ?_⟩
      · intro session member
        cases member
      · intro publication member
        cases member
  exact evolving.publications

instance decidableComparesLatest (read : Option OntologyRow) :
    (session : Session) → Decidable (session.ComparesLatest read)
  | .comparing draft latest => inferInstanceAs (Decidable
      (draft.evolutionPolicy = .reject →
        ∀ row ∈ latest, ∃ previous ∈ read.map (asHeld draft), previous.Includes row))
  | .begun _ _ | .drafting _ | .numbering _ | .inserting _ | .updating _ _ _ | .updated _ _ _
  | .ended _ => isTrue trivial

instance decidableStillVetted (rows : List OntologyRow) :
    (session : Session) → Decidable (session.StillVetted rows)
  | .updating loaded _ (some _) => inferInstanceAs (Decidable
      (∀ row ∈ rows, row.id = loaded.id → row.evolutionPolicy = .reject →
        loaded.evolutionPolicy = .reject ∧ row.Includes loaded))
  | .updating _ _ none | .begun _ _ | .drafting _ | .numbering _ | .inserting _ | .comparing _ _
  | .updated _ _ _ | .ended _ => isTrue trivial

instance decidableUndisturbed (store : OntologyStore) :
    (event : Event) → Decidable (store.Undisturbed event)
  | .compare id previous => inferInstanceAs (Decidable
      (∀ session ∈ store.sessions[id]?, session.ComparesLatest previous))
  | .flush id => inferInstanceAs (Decidable
      (∀ session ∈ store.sessions[id]?, session.StillVetted store.rows))
  | .call _ | .load _ | .findDraft _ | .readMax _ | .commit _ | .rollback _ => isTrue trivial

def tables : Content where
  containmentEdgeTypes := []
  lineageEdgeTypes := []
  edgeTypeMetadata := .nil
  entityTypeHierarchy := .nil
  rootEntityTypes := []
  entityTypeDefinitions := .cons "table" (.object .nil) .nil
  relationshipTypeDefinitions := .nil

def firstVersion : OntologyRow where
  id := 1
  schemaId := some 1
  version := 1
  name := "Data platform"
  description := none
  evolutionPolicy := .reject
  isPublished := true
  isSystem := false
  deleted := false
  content := tables

def secondVersion : OntologyRow :=
  { firstVersion with id := 2, version := 2, isPublished := false }

def twoVersions : OntologyTable := ⟨[firstVersion, secondVersion], by decide, by decide⟩

/-- A publication with what happens after the guard has compared. -/
def publishedBeside (meanwhile : List Event) : List Event :=
  [.call (.publishOntology 2 false), .load 0, .compare 0 (some firstVersion)] ++ meanwhile ++
    [.flush 0, .commit 0]

def renamedMeanwhile : List Event :=
  publishedBeside
    [.call (.updateOntology 2 { name := some "Warehouse" }), .load 1, .flush 1, .commit 1]

/-- The draft loses its types after the guard has compared them. -/
def emptiedMeanwhile : List Event :=
  publishedBeside [.call (.updateOntology 2 { content := { entityTypeDefinitions := some .nil } }),
    .load 1, .flush 1, .commit 1]

theorem publications_evolve_renamedMeanwhile : ∃ last,
    run step (start twoVersions) renamedMeanwhile = some last ∧
      last.publications.length = 1 ∧ ∀ publication ∈ last.publications, publication.Evolves := by
  obtain ⟨last, ran, one⟩ := Option.map_eq_some_iff.mp
    (show (run step (start twoVersions) renamedMeanwhile).map
      (fun last => last.publications.length) = some 1 by decide +kernel)
  have undisturbed : Meets step Undisturbed (start twoVersions) renamedMeanwhile := by
    decide +kernel
  exact ⟨last, ran, one, publications_evolve twoVersions _ last undisturbed ran⟩

theorem emptied_published :
    (run step (start twoVersions) emptiedMeanwhile).map OntologyStore.publications =
      some [⟨{ secondVersion with
        isPublished := true
        content := { tables with entityTypeDefinitions := .nil } }, [firstVersion]⟩] := by
  decide +kernel

theorem publications_not_evolve : ∃ last,
    run step (start twoVersions) emptiedMeanwhile = some last ∧
      ¬ ∀ publication ∈ last.publications, publication.Evolves := by
  obtain ⟨last, ran, published⟩ := Option.map_eq_some_iff.mp emptied_published
  refine ⟨last, ran, ?_⟩
  intro evolve
  have includes := evolve _ (by rw [published]; exact List.mem_singleton_self _) rfl firstVersion
    (List.mem_singleton_self _)
  exact absurd includes (by decide)

end OntologyStore

end Univiz.Ontology
