import Univiz.Data.Exclusion
import Univiz.Ontology.Store

namespace Univiz.Ontology

open Univiz.Data

/-! When published ontologies stay as they are and the versions of a schema stay distinct. -/

variable {rows : List OntologyRow} {row other source : OntologyRow} {schema id : Nat}
  {write : Write}

def Session.numbered : Session → Option Nat
  | .inserting row => row.schemaId
  | _ => none

def Known (rows : List OntologyRow) (schema : Nat) : Prop := ∃ row ∈ rows, row.schema = schema

/-- What a session in progress knows of the rows. -/
def Session.Consistent (rows : List OntologyRow) : Session → Prop
  | .drafting source => Known rows source.schema
  | .numbering row =>
      row.isPublished = false ∧ ∃ schema, row.schemaId = some schema ∧ Known rows schema
  | .inserting row =>
      row.isPublished = false ∧ ∀ schema, row.schemaId = some schema →
        Known rows schema ∧ ∀ other ∈ rows, other.schemaId = some schema →
          other.version < row.version
  | .updated loaded write _ =>
      write.content ≠ {} → ∀ row ∈ rows, row.id = loaded.id → row.isPublished = false
  | .begun _ _ | .comparing _ _ | .updating _ _ _ | .ended _ => True

/-- The row that a session has read to write new contents to it is a draft. -/
def Session.HasDraft (rows : List OntologyRow) : Session → Prop
  | .updating loaded write _ =>
      write.content ≠ {} → ∀ row ∈ rows, row.id = loaded.id → row.isPublished = false
  | _ => True

/-- The two number no schema in common. -/
def Session.Separate (session other : Session) : Prop :=
  ∀ schema, session.numbered = some schema → other.numbered ≠ some schema

def Session.numbersAlone (sessions : List Session) : Session → Bool
  | .numbering row => sessions.all fun session => session.numbered ≠ row.schemaId
  | _ => true

namespace OntologyStore

/-- A number is read only while no other transaction has read one of the schema. -/
def NumbersAlone (store : OntologyStore) : Event → Prop
  | .readMax id => ∀ session ∈ store.sessions[id]?, session.numbersAlone store.sessions = true
  | _ => True

/-- The first event commits a publish of the row that the transaction of the second has read,
and has new contents for. -/
def overtakes (store : OntologyStore) : Event → Event → Bool
  | .commit publisher, .flush id =>
      match store.sessions[publisher]?, store.sessions[id]? with
      | some (.updated published publication _), some (.updating loaded write _) =>
          publication.isPublished && published.id = loaded.id && write.content ≠ {}
      | _, _ => false
  | _, _ => false

/-- No publish commits between the SELECT of its row and the UPDATE of a transaction with new
contents for it, and a number is read only while no other transaction has read one of the
schema. -/
def Careful : OntologyStore → List Event → Prop
  | _, [] => True
  | store, event :: later =>
      store.NumbersAlone event ∧ (∀ update ∈ later, store.overtakes event update = false) ∧
        ∀ next, step store event = some next → Careful next later

structure Guarded (store : OntologyStore) : Prop where
  keyed : (store.rows.map OntologyRow.id).Nodup
  versioned : store.rows.Pairwise fun row other =>
    row.schemaId = other.schemaId → row.version ≠ other.version
  sessions : ∀ session ∈ store.sessions, session.Consistent store.rows
  exclusive : store.Exclusive
  separate : Mutually Session.Separate store.sessions

/-- A transaction whose UPDATE is still to come has a draft for its new contents. -/
def Drafted (store : OntologyStore) (later : List Event) : Prop :=
  ∀ id session, store.sessions[id]? = some session → .flush id ∈ later →
    session.HasDraft store.rows

end OntologyStore

theorem Known.ne_freshId (known : Known rows schema) : schema ≠ freshId rows := by
  obtain ⟨row, member, rfl⟩ := known
  exact Nat.ne_of_lt (lt_freshId member).2

theorem Known.of_mem (member : row ∈ rows) : Known rows row.schema := ⟨row, member, rfl⟩

theorem load_consistent (rows latest : List OntologyRow) (call : Call) :
    (load rows latest call).Consistent rows ∧ (load rows latest call).numbered = none := by
  have loaded := load_loaded rows latest call
  generalize load rows latest call = session at loaded
  cases loaded with
  | ended outcome => exact ⟨trivial, rfl⟩
  | numbering row source member belongs draft =>
      exact ⟨⟨draft, source.schema, belongs, .of_mem member⟩, rfl⟩
  | inserting row own draft =>
      refine ⟨⟨draft, ?_⟩, own⟩
      intro schema belongs
      rw [own] at belongs
      cases belongs
  | drafting source member => exact ⟨.of_mem member, rfl⟩
  | comparing draft member => exact ⟨trivial, rfl⟩
  | updating row write member draft => exact ⟨trivial, rfl⟩

theorem load_hasDraft (keyed : (rows.map OntologyRow.id).Nodup) (latest : List OntologyRow)
    (call : Call) : (load rows latest call).HasDraft rows := by
  have loaded := load_loaded rows latest call
  generalize load rows latest call = session at loaded
  cases loaded with
  | updating row write member draft =>
      intro touches other member' same
      rw [List.inj_on_of_nodup_map keyed member' member same]
      exact draft touches
  | ended outcome => trivial
  | numbering row source member belongs draft => trivial
  | inserting row own draft => trivial
  | drafting source member => trivial
  | comparing draft member => trivial

theorem findDraft_consistent (known : Known rows source.schema) :
    (findDraft rows source).Consistent rows ∧ (findDraft rows source).numbered = none := by
  unfold findDraft
  split
  · exact ⟨⟨rfl, _, rfl, known⟩, rfl⟩
  · exact ⟨trivial, rfl⟩

theorem readMax_consistent (consistent : (Session.numbering row).Consistent rows) :
    (readMax rows row).Consistent rows := by
  obtain ⟨draft, schema, belongs, known⟩ := consistent
  have own : row.schema = schema := by rw [OntologyRow.schema, belongs, Option.getD_some]
  refine ⟨draft, ?_⟩
  intro schema' belongs'
  cases belongs.symm.trans belongs'
  refine ⟨known, ?_⟩
  intro other member same
  rw [own]
  exact Nat.lt_succ_of_le (le_maxVersion member same)

theorem compare_consistent (rows : List OntologyRow) (draft : OntologyRow)
    (latest : List OntologyRow) (previous : Option OntologyRow) :
    (compare draft latest previous).Consistent rows ∧
      (compare draft latest previous).numbered = none := by
  unfold compare
  split <;> exact ⟨trivial, rfl⟩

theorem Session.separate_of_none {session other : Session} (unnumbered : session.numbered = none) :
    session.Separate other ∧ other.Separate session := by
  refine ⟨?_, ?_⟩
  · intro schema numbered
    rw [unnumbered] at numbered
    cases numbered
  · intro schema _ numbered
    rw [unnumbered] at numbered
    cases numbered

/-- The session is to write new contents to the row. -/
def Session.Rewrites (id : Nat) (session : Session) : Prop :=
  ∃ loaded write latest, session = .updating loaded write latest ∧ write.content ≠ {} ∧
    loaded.id = id

theorem Session.HasDraft.mono {session : Session} {later : List OntologyRow}
    (hasDraft : session.HasDraft rows)
    (unpublished : ∀ id, session.Rewrites id →
      (∀ row ∈ rows, row.id = id → row.isPublished = false) →
        ∀ row ∈ later, row.id = id → row.isPublished = false) : session.HasDraft later := by
  cases session with
  | updating loaded write latest =>
      intro touches
      exact unpublished loaded.id ⟨loaded, write, latest, rfl, touches, rfl⟩ (hasDraft touches)
  | begun call latest => trivial
  | drafting source => trivial
  | numbering row => trivial
  | inserting row => trivial
  | comparing draft latest => trivial
  | updated loaded write latest => trivial
  | ended outcome => trivial

/-- A session is as consistent with rows that keep their identities and schemas and of
which none has newly become published or numbered in its way. -/
theorem Session.Consistent.mono {session : Session} {later : List OntologyRow}
    (consistent : session.Consistent rows)
    (known : ∀ schema, Known rows schema → Known later schema)
    (unpublished : ∀ id, session.locks = some id →
      (∀ row ∈ rows, row.id = id → row.isPublished = false) →
        ∀ row ∈ later, row.id = id → row.isPublished = false)
    (unnumbered : ∀ schema, session.numbered = some schema → ∀ row ∈ later,
      row.schemaId = some schema → ∃ old ∈ rows, old.schemaId = some schema ∧
        old.version = row.version) : session.Consistent later := by
  cases session with
  | drafting source => exact known _ consistent
  | numbering row =>
      obtain ⟨draft, schema, belongs, old⟩ := consistent
      exact ⟨draft, schema, belongs, known schema old⟩
  | inserting row =>
      obtain ⟨draft, numbers⟩ := consistent
      refine ⟨draft, ?_⟩
      intro schema belongs
      obtain ⟨old, highest⟩ := numbers schema belongs
      refine ⟨known schema old, ?_⟩
      intro other member same
      obtain ⟨before, member', same', version⟩ := unnumbered schema belongs other member same
      exact version ▸ highest before member' same'
  | updated loaded write latest =>
      intro content
      exact unpublished loaded.id rfl (consistent content)
  | begun call latest => trivial
  | comparing draft latest => trivial
  | updating loaded write latest => trivial
  | ended outcome => trivial

namespace OntologyStore

variable {store next : OntologyStore} {event : Event} {session new : Session}

theorem Guarded.setSession (guarded : store.Guarded) (consistent : new.Consistent store.rows)
    (exclusive : (store.setSession id new).Exclusive)
    (separate : ∀ j other, id ≠ j → store.sessions[j]? = some other →
      new.Separate other ∧ other.Separate new) : (store.setSession id new).Guarded where
  keyed := guarded.keyed
  versioned := guarded.versioned
  sessions session member := by
    rcases List.mem_or_eq_of_mem_set member with old | rfl
    · exact guarded.sessions session old
    · exact consistent
  exclusive := exclusive
  separate := guarded.separate.set (fun j other apart found => (separate j other apart found).1)
    fun j other apart found => (separate j other apart found).2

theorem begins_consistent (store : OntologyStore) (call : Call) :
    (store.begins call).Consistent store.rows ∧ (store.begins call).numbered = none := by
  unfold begins
  split <;> exact ⟨trivial, rfl⟩

theorem begins_hasDraft (store : OntologyStore) (call : Call) :
    (store.begins call).HasDraft store.rows := by
  unfold begins
  split <;> trivial

theorem Moves.hasDraft (moves : Moves store id event session new)
    (keyed : (store.rows.map OntologyRow.id).Nodup) : new.HasDraft store.rows := by
  cases moves with
  | load call latest => exact load_hasDraft keyed latest call
  | findDraft source =>
      unfold Ontology.findDraft
      split <;> trivial
  | readMax row => trivial
  | compare draft latest previous returned =>
      unfold Ontology.compare
      split
      · exact fun touches => absurd rfl touches
      · trivial
  | flush loaded write latest unlocked => trivial
  | rollback session => trivial

theorem Guarded.moves (guarded : store.Guarded) (found : store.sessions[id]? = some session)
    (moves : Moves store id event session new) (exclusive : (store.setSession id new).Exclusive)
    (alone : store.NumbersAlone event) (drafted : store.Drafted [event]) :
    (store.setSession id new).Guarded := by
  have consistent := guarded.sessions session (List.mem_of_getElem? found)
  cases moves with
  | load call latest =>
      obtain ⟨consistent, unnumbered⟩ := load_consistent store.rows latest call
      exact guarded.setSession consistent exclusive
        fun _ _ _ _ => Session.separate_of_none unnumbered
  | findDraft source =>
      obtain ⟨consistent, unnumbered⟩ := findDraft_consistent consistent
      exact guarded.setSession consistent exclusive
        fun _ _ _ _ => Session.separate_of_none unnumbered
  | compare draft latest previous returned =>
      obtain ⟨consistent, unnumbered⟩ := compare_consistent store.rows draft latest _
      exact guarded.setSession consistent exclusive
        fun _ _ _ _ => Session.separate_of_none unnumbered
  | rollback session =>
      exact guarded.setSession trivial exclusive fun _ _ _ _ => Session.separate_of_none rfl
  | readMax row =>
      apply guarded.setSession (readMax_consistent consistent) exclusive
      intro j other _ found'
      have apart : other.numbered ≠ row.schemaId := by
        have free := List.all_eq_true.mp (alone _ found) other (List.mem_of_getElem? found')
        simpa using free
      refine ⟨?_, ?_⟩
      · intro schema numbered numbered'
        exact apart (numbered'.trans numbered.symm)
      · intro schema numbered' numbered
        exact apart (numbered'.trans numbered.symm)
  | flush loaded write latest unlocked =>
      have draft : (Session.updating loaded write latest).HasDraft store.rows :=
        drafted id _ found (List.mem_singleton_self _)
      exact guarded.setSession draft exclusive fun _ _ _ _ => Session.separate_of_none rfl

theorem mem_insert {row : OntologyRow} : other ∈ (store.insert row).rows ↔
    other ∈ store.rows ∨ other = store.inserted row := by
  simp [insert]

theorem schema_inserted (row : OntologyRow) :
    (store.inserted row).schemaId = row.schemaId ∧ row.schemaId ≠ none ∨
      (store.inserted row).schemaId = some (freshId store.rows) ∧ row.schemaId = none := by
  unfold inserted
  cases row.schemaId with
  | none => exact .inr ⟨rfl, rfl⟩
  | some schema => exact .inl ⟨rfl, nofun⟩

theorem Guarded.insert (guarded : store.Guarded)
    (exclusive : ((store.insert row).setSession id (.ended .done)).Exclusive)
    (found : store.sessions[id]? = some (.inserting row)) :
    ((store.insert row).setSession id (.ended .done)).Guarded := by
  obtain ⟨draft, numbers⟩ := guarded.sessions _ (List.mem_of_getElem? found)
  have fresh : ∀ other ∈ store.rows, other.schemaId = (store.inserted row).schemaId →
      other.version < (store.inserted row).version := by
    intro other member same
    rcases schema_inserted row with ⟨kept, some'⟩ | ⟨own, -⟩
    · obtain ⟨schema, belongs⟩ := Option.ne_none_iff_exists'.mp some'
      rw [kept, belongs] at same
      exact (numbers schema belongs).2 other member same
    · have below := (lt_freshId member).2
      rw [OntologyRow.schema, same, own, Option.getD_some] at below
      exact absurd below (Nat.lt_irrefl _)
  refine ⟨?_, ?_, ?_, exclusive, ?_⟩
  · have unused : ∀ other ∈ store.rows, other.id ≠ freshId store.rows :=
      fun other member => Nat.ne_of_lt (lt_freshId member).1
    simpa [OntologyStore.setSession, OntologyStore.insert, inserted, List.nodup_append]
      using ⟨guarded.keyed, unused⟩
  · refine List.pairwise_append.mpr ⟨guarded.versioned, List.pairwise_singleton _ _, ?_⟩
    intro other member last added same
    rw [List.mem_singleton.mp added] at same ⊢
    exact Nat.ne_of_lt (fresh other member same)
  · intro session member
    obtain ⟨j, lookup⟩ := List.mem_iff_getElem?.mp member
    rcases getElem?_set_cases lookup with ⟨-, rfl⟩ | ⟨apart, found'⟩
    · trivial
    · apply (guarded.sessions session (List.mem_of_getElem? found')).mono
      · rintro schema ⟨other, member, rfl⟩
        exact .of_mem (mem_insert.mpr (.inl member))
      · intro other _ unpublished later member same
        rcases mem_insert.mp member with old | rfl
        · exact unpublished later old same
        · exact draft
      · intro schema numbered later member belongs
        rcases mem_insert.mp member with old | rfl
        · exact ⟨later, old, belongs, rfl⟩
        · exfalso
          rcases schema_inserted row with ⟨kept, -⟩ | ⟨own, -⟩
          · rw [kept] at belongs
            exact guarded.separate id j _ session found found' apart schema belongs numbered
          · rw [own] at belongs
            cases belongs
            have known : Known store.rows (freshId store.rows) := by
              have consistent := guarded.sessions session (List.mem_of_getElem? found')
              cases session with
              | inserting other => exact (consistent.2 _ numbered).1
              | begun call latest => cases numbered
              | drafting source => cases numbered
              | numbering row => cases numbered
              | comparing draft latest => cases numbered
              | updating loaded write latest => cases numbered
              | updated loaded write latest => cases numbered
              | ended outcome => cases numbered
            exact known.ne_freshId rfl
  · exact guarded.separate.set
      (fun _ _ _ _ => (Session.separate_of_none rfl).1)
      (fun _ _ _ _ => (Session.separate_of_none rfl).2)

theorem Guarded.update {loaded : OntologyRow} {latest : Option (List OntologyRow)}
    (guarded : store.Guarded)
    (exclusive : (((store.update loaded.id write).publish loaded.id latest).setSession id
      (.ended .done)).Exclusive)
    (found : store.sessions[id]? = some (.updated loaded write latest)) :
    (((store.update loaded.id write).publish loaded.id latest).setSession id
      (.ended .done)).Guarded := by
  have kept := write.rewrite_keeps loaded.id
  have rows : (((store.update loaded.id write).publish loaded.id latest).setSession id
      (.ended .done)).rows = (store.update loaded.id write).rows := rows_publish
  refine ⟨?_, ?_, ?_, exclusive, ?_⟩
  · have ids : (store.update loaded.id write).rows.map OntologyRow.id =
        store.rows.map OntologyRow.id := by
      rw [OntologyStore.update, List.map_map]
      exact List.map_congr_left fun row _ => (kept row).2.2
    rw [rows, ids]
    exact guarded.keyed
  · rw [rows]
    apply List.pairwise_map.mpr
    apply guarded.versioned.imp
    intro row other apart same
    rw [(kept row).1, (kept other).1] at same
    rw [(kept row).2.1, (kept other).2.1]
    exact apart same
  · intro session member
    rw [rows]
    rcases guarded.exclusive.committed_cases found member with rfl | ⟨old, spared⟩
    · trivial
    · apply (guarded.sessions session old).mono
      · rintro schema ⟨other, member, rfl⟩
        refine ⟨_, mem_update.mpr ⟨other, member, rfl⟩, ?_⟩
        rw [OntologyRow.schema, (kept other).1, (kept other).2.2]
        rfl
      · intro held locks unpublished later member same
        exact unpublished later (spared held locks later member same) same
      · intro schema numbered later member belongs
        obtain ⟨row, old, rfl⟩ := mem_update.mp member
        rw [(kept row).1] at belongs
        exact ⟨row, old, belongs, ((kept row).2.1).symm⟩
  · simp only [OntologyStore.setSession, sessions_publish]
    exact guarded.separate.set
      (fun _ _ _ _ => (Session.separate_of_none rfl).1)
      (fun _ _ _ _ => (Session.separate_of_none rfl).2)

theorem Guarded.step (guarded : store.Guarded) (alone : store.NumbersAlone event)
    (drafted : store.Drafted [event]) (stepped : store.step event = some next) :
    next.Guarded := by
  have exclusive := guarded.exclusive.step stepped
  rcases step_cases stepped with ⟨call, rfl, rfl⟩ | ⟨id, session, new, found, moves, rfl⟩ |
    ⟨id, row, rfl, found, rfl⟩ | ⟨id, loaded, write, latest, rfl, found, rfl⟩
  · obtain ⟨consistent, unnumbered⟩ := store.begins_consistent call
    refine ⟨guarded.keyed, guarded.versioned, ?_, exclusive, ?_⟩
    · intro session member
      rcases List.mem_append.mp member with old | fresh
      · exact guarded.sessions session old
      · rw [List.mem_singleton.mp fresh]
        exact consistent
    · exact guarded.separate.concat (fun _ _ => (Session.separate_of_none unnumbered).1)
        fun _ _ => (Session.separate_of_none unnumbered).2
  · exact guarded.moves found moves exclusive alone drafted
  · exact guarded.insert exclusive found
  · exact guarded.update exclusive found

/-- The row is published, and still has the content of `row`. -/
def Kept (row : OntologyRow) (rows : List OntologyRow) : Prop :=
  ∃ later ∈ rows, later.id = row.id ∧ later.content = row.content ∧ later.isPublished = true

theorem Guarded.kept (guarded : store.Guarded) (stepped : store.step event = some next)
    (kept : Kept row store.rows) : Kept row next.rows := by
  obtain ⟨later, member, same, content, published⟩ := kept
  rcases step_cases stepped with ⟨call, rfl, rfl⟩ | ⟨id, session, new, found, moves, rfl⟩ |
    ⟨id, inserted, rfl, found, rfl⟩ | ⟨id, loaded, write, latest, rfl, found, rfl⟩
  · exact ⟨later, member, same, content, published⟩
  · exact ⟨later, member, same, content, published⟩
  · exact ⟨later, mem_insert.mpr (.inl member), same, content, published⟩
  · simp only [OntologyStore.setSession, rows_publish]
    refine ⟨_, mem_update.mpr ⟨later, member, rfl⟩, ?_⟩
    split
    · rename_i mine
      have metadata : write.content = {} := by
        by_contra touches
        have consistent := guarded.sessions _ (List.mem_of_getElem? found)
        have unpublished := consistent touches later member mine
        rw [published] at unpublished
        cases unpublished
      refine ⟨same, ?_, by simp [Write.apply, published]⟩
      simp only [Write.apply, metadata, ContentUpdate.apply_empty, content]
    · exact ⟨same, content, published⟩

/-- Only the commit of a publish makes a draft something else. -/
theorem Drafted.step {later : List Event} (guarded : store.Guarded)
    (drafted : store.Drafted (event :: later))
    (spared : ∀ update ∈ later, store.overtakes event update = false)
    (stepped : store.step event = some next) : next.Drafted later := by
  intro j held lookup flushed
  have flushed' : .flush j ∈ event :: later := List.mem_cons_of_mem event flushed
  rcases step_cases stepped with ⟨call, rfl, rfl⟩ | ⟨id, session, new, found, moves, rfl⟩ |
    ⟨id, inserted, rfl, found, rfl⟩ | ⟨id, loaded, write, latest, rfl, found, rfl⟩
  · rw [List.getElem?_append] at lookup
    split at lookup
    · exact drafted j held lookup flushed'
    · rw [List.mem_singleton.mp (List.mem_of_getElem? lookup)]
      exact store.begins_hasDraft call
  · rcases getElem?_set_cases lookup with ⟨-, rfl⟩ | ⟨-, lookup'⟩
    · exact moves.hasDraft guarded.keyed
    · exact drafted j held lookup' flushed'
  · rcases getElem?_set_cases lookup with ⟨-, rfl⟩ | ⟨-, lookup'⟩
    · trivial
    · apply (drafted j held lookup' flushed').mono
      intro own _ unpublished row member mine
      rcases mem_insert.mp member with old | rfl
      · exact unpublished row old mine
      · exact (guarded.sessions _ (List.mem_of_getElem? found)).1
  · simp only [OntologyStore.setSession, sessions_publish] at lookup
    rcases getElem?_set_cases lookup with ⟨-, rfl⟩ | ⟨-, lookup'⟩
    · trivial
    · apply (drafted j held lookup' flushed').mono
      intro own rewrites unpublished row member mine
      simp only [OntologyStore.setSession, rows_publish] at member
      obtain ⟨old, member', rfl⟩ := mem_update.mp member
      rw [(write.rewrite_keeps loaded.id old).2.2] at mine
      split
      · rename_i same
        have unpublishing : write.isPublished = false := by
          obtain ⟨read, content, latest', rfl, touches, rfl⟩ := rewrites
          have reading : store.sessions[j]? = some (.updating read content latest') := lookup'
          have silent := spared _ flushed
          simpa [overtakes, found, reading, touches, ← same, mine] using silent
        rw [Write.apply, unpublishing, Bool.false_or]
        exact unpublished old member' mine
      · exact unpublished old member' mine

theorem start_guarded (table : OntologyTable) : (start table).Guarded where
  keyed := table.keyed
  versioned := table.versioned
  sessions _ member := nomatch member
  exclusive := .nil
  separate := .nil

theorem guarded_run {events later : List Event} {last : OntologyStore} (guarded : store.Guarded)
    (drafted : store.Drafted (events ++ later)) (careful : Careful store (events ++ later))
    (ran : run step store events = some last) :
    last.Guarded ∧ last.Drafted later ∧ Careful last later ∧
      ∀ row, Kept row store.rows → Kept row last.rows := by
  induction events generalizing store with
  | nil =>
      cases ran
      exact ⟨guarded, drafted, careful, fun _ kept => kept⟩
  | cons event rest ih =>
      obtain ⟨next, stepped, finished⟩ := run_cons.mp ran
      obtain ⟨alone, spared, onward⟩ := careful
      have now : store.Drafted [event] := by
        intro id session found flushed
        rw [← List.mem_singleton.mp flushed] at drafted
        exact drafted id session found List.mem_cons_self
      obtain ⟨guarded', drafted', careful', kept⟩ := ih (guarded.step alone now stepped)
        (drafted.step guarded spared stepped) (onward next stepped) finished
      exact ⟨guarded', drafted', careful', fun row held => kept row (guarded.kept stepped held)⟩

/-- In a careful run every ontology that is published at some time has the same content ever
after, and the versions of a schema are distinct. -/
theorem published_immutable (table : OntologyTable) (before after : List Event)
    (middle last : OntologyStore) (careful : Careful (start table) (before ++ after))
    (ran : run step (start table) before = some middle)
    (ran' : run step middle after = some last) :
    (∀ row ∈ middle.rows, row.isPublished = true → Kept row last.rows) ∧
      last.rows.Pairwise fun row other =>
        row.schemaId = other.schemaId → row.version ≠ other.version := by
  have idle : (start table).Drafted (before ++ after) := fun _ _ found => nomatch found
  obtain ⟨guarded, drafted, careful, -⟩ := guarded_run (start_guarded table) idle careful ran
  rw [← List.append_nil after] at drafted careful
  obtain ⟨final, -, -, kept⟩ := guarded_run guarded drafted careful ran'
  refine ⟨?_, final.versioned⟩
  intro row member published
  exact kept row ⟨row, member, rfl, rfl, published⟩

instance decidableNumbersAlone (store : OntologyStore) :
    (event : Event) → Decidable (store.NumbersAlone event)
  | .readMax id => inferInstanceAs (Decidable
      (∀ session ∈ store.sessions[id]?, session.numbersAlone store.sessions = true))
  | .call _ | .load _ | .findDraft _ | .compare _ _ | .flush _ | .commit _ | .rollback _ =>
      isTrue trivial

instance decidableCareful :
    (store : OntologyStore) → (events : List Event) → Decidable (Careful store events)
  | _, [] => isTrue trivial
  | store, event :: later =>
      have _onward := fun next => decidableCareful next later
      have : Decidable (∀ next, step store event = some next → Careful next later) :=
        match store.step event with
        | none => isTrue nofun
        | some next => decidable_of_iff (Careful next later)
            ⟨fun careful _ same => Option.some.inj same ▸ careful, fun careful => careful next rfl⟩
      inferInstanceAs (Decidable (_ ∧ _ ∧ _))

def withEntities (types : JsonFields) : Content where
  containmentEdgeTypes := []
  lineageEdgeTypes := []
  edgeTypeMetadata := .nil
  entityTypeHierarchy := .nil
  rootEntityTypes := []
  entityTypeDefinitions := types
  relationshipTypeDefinitions := .nil

def table : JsonFields := .cons "table" (.object .nil) .nil

def draft : OntologyRow where
  id := 1
  schemaId := some 1
  version := 1
  name := "Data platform"
  description := none
  evolutionPolicy := .reject
  isPublished := false
  isSystem := false
  deleted := false
  content := withEntities table

def oneDraft : OntologyTable := ⟨[draft], by decide, by decide⟩

def onePublished : OntologyTable := ⟨[{ draft with isPublished := true }], by decide, by decide⟩

def emptied : Call := .updateOntology 1 { content := { entityTypeDefinitions := some .nil } }

def published : List Event :=
  [.call (.publishOntology 1 false), .load 0, .compare 0 none, .flush 0, .commit 0]

def emptiedAfter : List Event := [.call emptied, .load 1, .readMax 1, .commit 1]

theorem published_immutable_emptiedAfter : ∃ middle last,
    run step (start oneDraft) published = some middle ∧
      run step middle emptiedAfter = some last ∧ last.rows.length = 2 ∧
      (∀ row ∈ middle.rows, row.isPublished = true → Kept row last.rows) ∧
      last.rows.Pairwise fun row other =>
        row.schemaId = other.schemaId → row.version ≠ other.version := by
  obtain ⟨last, ran, rows⟩ := Option.map_eq_some_iff.mp
    (show (run step (start oneDraft) (published ++ emptiedAfter)).map
      (fun last => last.rows.length) = some 2 by decide +kernel)
  obtain ⟨middle, ran, ran'⟩ := run_append.mp ran
  have careful : Careful (start oneDraft) (published ++ emptiedAfter) := by decide +kernel
  exact ⟨middle, last, ran, ran', rows,
    published_immutable oneDraft published emptiedAfter middle last careful ran ran'⟩

/-- An update that has read the draft writes it after the publish. -/
def publishedMeanwhile : List Event :=
  [.call emptied, .load 0, .call (.publishOntology 1 false), .load 1, .compare 1 none, .flush 1,
    .commit 1]

def emptiedLate : List Event := [.flush 0, .commit 0]

theorem publishedMeanwhile_rows :
    (run step (start oneDraft) publishedMeanwhile).map OntologyStore.rows =
      some [{ draft with isPublished := true }] := by
  decide +kernel

theorem emptiedLate_rows :
    (run step (start oneDraft) (publishedMeanwhile ++ emptiedLate)).map OntologyStore.rows =
      some [{ draft with isPublished := true, content := withEntities .nil }] := by
  decide +kernel

/-- Two updates of a published ontology read the highest version before either commits. -/
def numberedTwice : List Event :=
  [.call emptied, .load 0, .readMax 0, .call emptied, .load 1, .readMax 1, .commit 0, .commit 1]

theorem numberedTwice_versions :
    (run step (start onePublished) numberedTwice).map
      (fun last => last.rows.map fun row => (row.schemaId, row.version)) =
        some [(some 1, 1), (some 1, 2), (some 1, 2)] := by
  decide +kernel

theorem published_not_immutable :
    (∃ middle last, run step (start oneDraft) publishedMeanwhile = some middle ∧
      run step middle emptiedLate = some last ∧
        ¬ ∀ row ∈ middle.rows, row.isPublished = true → Kept row last.rows) ∧
      ∃ last, run step (start onePublished) numberedTwice = some last ∧
        ¬ last.rows.Pairwise fun row other =>
          row.schemaId = other.schemaId → row.version ≠ other.version := by
  refine ⟨?_, ?_⟩
  · obtain ⟨last, ran, rows⟩ := Option.map_eq_some_iff.mp emptiedLate_rows
    obtain ⟨middle, before, after⟩ := run_append.mp ran
    have rows' : middle.rows = [{ draft with isPublished := true }] := by
      have shape := publishedMeanwhile_rows
      rw [before] at shape
      exact Option.some.inj shape
    refine ⟨middle, last, before, after, ?_⟩
    intro kept
    obtain ⟨later, member, -, content, -⟩ := kept { draft with isPublished := true }
      (by simp [rows']) rfl
    rw [rows, List.mem_singleton] at member
    subst member
    exact absurd content (by decide)
  · obtain ⟨last, ran, shape⟩ := Option.map_eq_some_iff.mp numberedTwice_versions
    refine ⟨last, ran, ?_⟩
    intro distinct
    have apart : (last.rows.map fun row => (row.schemaId, row.version)).Pairwise (· ≠ ·) := by
      apply List.pairwise_map.mpr
      apply distinct.imp
      intro row other versions same
      exact versions (congrArg Prod.fst same) (congrArg Prod.snd same)
    rw [shape] at apart
    exact absurd apart (by decide)

end OntologyStore

end Univiz.Ontology
