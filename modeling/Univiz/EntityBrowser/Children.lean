import Mathlib.Data.String.Basic
import Univiz.Data.OrderedMap
import Univiz.Data.Paging
import Univiz.EntityBrowser.Browser

namespace Univiz.EntityBrowser

open Univiz.Data

/-! The children of `useEntityBrowser`, which `FalkorDBProvider.get_children_with_edges` gives page
by page behind the display name of the last child of a page. -/

structure GraphNode where
  urn : String
  displayName : String
  childCount : Nat
deriving DecidableEq

/-- A containment edge, with the child at its end. -/
structure Containment where
  parentUrn : String
  type : String
  child : GraphNode
deriving DecidableEq

namespace Containment

def name (row : Containment) : String := row.child.displayName

def childUrn (row : Containment) : String := row.child.urn

end Containment

/-- The rows that the query for the children of a node matches. -/
def containments (graph : List Containment) (types : List String) (parentUrn : String) :
    List Containment :=
  graph.filter fun row => row.parentUrn = parentUrn ∧ row.type ∈ types

structure ChildrenWithEdgesResult where
  children : List GraphNode
  containmentEdges : List (String × String)
  totalChildren : Nat
  hasMore : Bool
  nextCursor : Option String

/-- The result for the rows of a page, without an offset.  The query counts the grandchildren after
it has cut the page, so the rows come in the order of that count. -/
def getChildrenWithEdges (limit : Nat) (page : List Containment) : ChildrenWithEdgesResult :=
  let hasMore : Bool := limit ≤ page.length
  { children := page.map Containment.child
    containmentEdges := page.map fun row => (row.parentUrn, row.childUrn)
    totalChildren := page.length + if hasMore then 1 else 0
    hasMore := hasMore
    nextCursor := if hasMore then page.getLast?.map Containment.name else none }

/-- An empty cursor is none. -/
def queried (cursor : Option String) : Option String := cursor.filter (· ≠ "")

structure BrowserNode where
  node : GraphNode
  childIds : List String
  totalChildren : Nat
  hasMore : Bool
  nextCursor : Option String
  loaded : Bool

def BrowserNode.fresh (node : GraphNode) : BrowserNode :=
  ⟨node, [], node.childCount, false, none, false⟩

inductive ChildRequest
  | expand (urn : String)
  | more (parentUrn : String) (cursor : Option String)
deriving DecidableEq

def ChildRequest.urn : ChildRequest → String
  | .expand urn => urn
  | .more parentUrn _ => parentUrn

def ChildRequest.cursor : ChildRequest → Option String
  | .expand _ => none
  | .more _ cursor => queried cursor

structure ChildBrowser where
  nodes : OrderedMap String BrowserNode
  parentMap : OrderedMap String String
  requests : List ChildRequest

inductive ChildEvent
  | expandNode (urn : String)
  | loadMoreChildren (parentUrn : String)
  | responds (request : Nat) (order page : List Containment)

namespace ChildBrowser

variable (browser : ChildBrowser)

/-- The browser after its top level has been loaded. -/
def start (topLevel : List GraphNode) : ChildBrowser where
  nodes := topLevel.foldl (fun nodes node => nodes.set node.urn (.fresh node)) OrderedMap.empty
  parentMap := OrderedMap.empty
  requests := []

def expandNode (urn : String) : ChildBrowser :=
  if (browser.nodes.get urn).any BrowserNode.loaded then browser
  else { browser with requests := browser.requests ++ [.expand urn] }

def loadMoreChildren (parentUrn : String) : ChildBrowser :=
  match (browser.nodes.get parentUrn).filter BrowserNode.hasMore with
  | some entry => { browser with requests := browser.requests ++ [.more parentUrn entry.nextCursor] }
  | none => browser

/-- A child is taken as it comes, with what is known of its own children. -/
def refreshChild (nodes : OrderedMap String BrowserNode) (child : GraphNode) :
    OrderedMap String BrowserNode :=
  nodes.set child.urn
    (match nodes.get child.urn with
    | some existing => { existing with node := child, totalChildren := child.childCount }
    | none => .fresh child)

def addChild (nodes : OrderedMap String BrowserNode) (child : GraphNode) :
    OrderedMap String BrowserNode :=
  match nodes.get child.urn with
  | some _ => nodes
  | none => nodes.set child.urn (.fresh child)

/-- A parent that is not there stays so. -/
def updateParent (nodes : OrderedMap String BrowserNode) (urn : String)
    (update : BrowserNode → BrowserNode) : OrderedMap String BrowserNode :=
  match nodes.get urn with
  | some entry => nodes.set urn (update entry)
  | none => nodes

def withParents (result : ChildrenWithEdgesResult) : OrderedMap String String :=
  result.containmentEdges.foldl (fun parents edge => parents.set edge.2 edge.1) browser.parentMap

def expanded (urn : String) (result : ChildrenWithEdgesResult) : ChildBrowser :=
  { browser with
    nodes := updateParent (result.children.foldl refreshChild browser.nodes) urn fun entry =>
      { entry with
        childIds := result.children.map GraphNode.urn
        totalChildren := result.totalChildren
        hasMore := result.hasMore
        nextCursor := result.nextCursor
        loaded := true }
    parentMap := browser.withParents result }

def loadedMore (parentUrn : String) (result : ChildrenWithEdgesResult) : ChildBrowser :=
  { browser with
    nodes := updateParent (result.children.foldl addChild browser.nodes) parentUrn fun entry =>
      { entry with
        childIds := entry.childIds ++
          (result.children.map GraphNode.urn).filter (· ∉ entry.childIds)
        totalChildren := result.totalChildren
        hasMore := result.hasMore
        nextCursor := result.nextCursor }
    parentMap := browser.withParents result }

def responded (request : ChildRequest) (result : ChildrenWithEdgesResult) : ChildBrowser :=
  match request with
  | .expand urn => browser.expanded urn result
  | .more parentUrn _ => browser.loadedMore parentUrn result

def step (graph : List Containment) (types : List String) : ChildEvent → Option ChildBrowser
  | .expandNode urn => some (browser.expandNode urn)
  | .loadMoreChildren parentUrn => some (browser.loadMoreChildren parentUrn)
  | .responds index order page =>
      browser.requests[index]?.bind fun request =>
        if IsPage Containment.name (containments graph types request.urn) pageSize request.cursor
            order page then
          some ({ browser with requests := browser.requests.eraseIdx index }.responded request
            (getChildrenWithEdges pageSize page))
        else none

/-- A node is expanded once: an answer does not put the first page in the place of later ones. -/
def ExpandsOnce : ChildEvent → Prop
  | .responds index _ _ => ∀ request, browser.requests[index]? = some request →
      request = .expand request.urn → (browser.nodes.get request.urn).all (!·.loaded) = true
  | .expandNode _ | .loadMoreChildren _ => True

instance : (event : ChildEvent) → Decidable (browser.ExpandsOnce event)
  | .responds index _ _ => inferInstanceAs (Decidable
      (∀ request, browser.requests[index]? = some request →
        request = .expand request.urn → (browser.nodes.get request.urn).all (!·.loaded) = true))
  | .expandNode _ | .loadMoreChildren _ => isTrue trivial

end ChildBrowser

/-- What a loaded node shows of its children: each of them once, unless two edges lead to it, and
in the end all but those that share their name. -/
structure Shows (rows : List Containment) (entry : BrowserNode) : Prop where
  only : ∀ id ∈ entry.childIds, ∃ row ∈ rows, row.childUrn = id
  once : (rows.map Containment.childUrn).Nodup → entry.childIds.Nodup
  all : entry.hasMore = false → ∀ row ∈ rows, Alone Containment.name rows row →
    row.childUrn ∈ entry.childIds

structure ChildBrowser.Faithful (graph : List Containment) (types : List String)
    (browser : ChildBrowser) : Prop where
  shows : ∀ urn entry, browser.nodes.get urn = some entry → entry.loaded = true →
    Shows (containments graph types urn) entry
  parents : ∀ child parent, browser.parentMap.get child = some parent →
    ∃ row ∈ containments graph types parent, row.childUrn = child

structure Tracked (rows : List Containment) (entry : BrowserNode) : Prop where
  only : ∀ id ∈ entry.childIds, ∃ row ∈ rows, row.childUrn = id
  once : (rows.map Containment.childUrn).Nodup → entry.childIds.Nodup
  unloaded : entry.loaded = false → entry.hasMore = false
  covers : entry.loaded = true → entry.hasMore = true →
    Covers Containment.name rows (·.childUrn ∈ entry.childIds) (queried entry.nextCursor)
  all : entry.loaded = true → entry.hasMore = false → ∀ row ∈ rows,
    Alone Containment.name rows row → row.childUrn ∈ entry.childIds

/-- The part of a node that only its own answers change. -/
def BrowserNode.known (entry : BrowserNode) : List String × Bool × Option String × Bool :=
  (entry.childIds, entry.hasMore, entry.nextCursor, entry.loaded)

section Entries

variable {rows order page : List Containment} {entry other : BrowserNode} {limit : Nat}
  {cursor : Option String} {nodes nodes' nodes'' : OrderedMap String BrowserNode}

theorem Tracked.congr (tracked : Tracked rows entry) (same : other.known = entry.known) :
    Tracked rows other := by
  obtain ⟨ids, more, next, loaded⟩ : other.childIds = entry.childIds ∧
      other.hasMore = entry.hasMore ∧ other.nextCursor = entry.nextCursor ∧
      other.loaded = entry.loaded := by
    simpa only [BrowserNode.known, Prod.mk.injEq] using same
  refine ⟨?_, ?_, ?_, ?_, ?_⟩
  · rw [ids]
    exact tracked.only
  · rw [ids]
    exact tracked.once
  · rw [more, loaded]
    exact tracked.unloaded
  · rw [ids, more, next, loaded]
    exact tracked.covers
  · rw [ids, more, loaded]
    exact tracked.all

theorem tracked_unloaded (ids : entry.childIds = []) (more : entry.hasMore = false)
    (loaded : entry.loaded = false) : Tracked rows entry where
  only := by
    rw [ids]
    exact fun _ member => (by cases member)
  once := by
    rw [ids]
    exact fun _ => List.nodup_nil
  unloaded _ := more
  covers now := by cases loaded.symm.trans now
  all now := by cases loaded.symm.trans now

theorem nodup_page (isPage : IsPage Containment.name rows limit cursor order page)
    (distinct : (rows.map Containment.childUrn).Nodup) : (page.map Containment.childUrn).Nodup := by
  have selected : ((rows.filter (isAfter Containment.name cursor)).map
      Containment.childUrn).Nodup := (List.filter_sublist.map _).nodup distinct
  have ordered := (isPage.perm.map Containment.childUrn).nodup_iff.mpr selected
  have taken := ((List.take_sublist limit order).map Containment.childUrn).nodup ordered
  exact (isPage.page.map Containment.childUrn).nodup_iff.mpr taken

/-- What a page leaves for the next one. -/
theorem tracked_page (isPage : IsPage Containment.name rows limit cursor order page)
    {listed : Containment → Prop} (covers : Covers Containment.name rows listed cursor)
    (loaded : entry.loaded = true)
    (more : entry.hasMore = (getChildrenWithEdges limit page).hasMore)
    (next : entry.nextCursor = (getChildrenWithEdges limit page).nextCursor)
    (only : ∀ id ∈ entry.childIds, ∃ row ∈ rows, row.childUrn = id)
    (once : (rows.map Containment.childUrn).Nodup → entry.childIds.Nodup)
    (keeps : ∀ row, listed row → row.childUrn ∈ entry.childIds)
    (lists : ∀ row ∈ page, row.childUrn ∈ entry.childIds) : Tracked rows entry where
  only := only
  once := once
  unloaded never := by cases loaded.symm.trans never
  covers := by
    intro _ full
    rw [next, getChildrenWithEdges]
    rw [more, getChildrenWithEdges] at full
    simp only at full ⊢
    rw [if_pos full]
    cases found : page.getLast? with
    | none => exact covers_none
    | some last =>
        rw [Option.map_some, queried]
        by_cases named : last.name = ""
        · rw [Option.filter_some_neg (by simp [named])]
          exact covers_none
        · rw [Option.filter_some_pos (by simp [named])]
          exact covers.full isPage (List.mem_of_getLast? found) keeps lists
  all := by
    intro _ short
    rw [more, getChildrenWithEdges] at short
    have few : page.length < limit := Nat.lt_of_not_le (of_decide_eq_false short)
    exact covers.short isPage few keeps lists

/-- Nodes stay as they are known, and new ones are not loaded. -/
def Kept (nodes nodes' : OrderedMap String BrowserNode) : Prop :=
  ∀ urn, (nodes'.get urn).map BrowserNode.known = (nodes.get urn).map BrowserNode.known ∨
    nodes.get urn = none ∧ (nodes'.get urn).map BrowserNode.known = some ([], false, none, false)

theorem kept_foldl {children : List GraphNode}
    {change : OrderedMap String BrowserNode → GraphNode → OrderedMap String BrowserNode}
    (each : ∀ nodes child, Kept nodes (change nodes child)) : Kept nodes (children.foldl change nodes) := by
  induction children generalizing nodes with
  | nil => exact fun urn => .inl rfl
  | cons child rest ih =>
      intro urn
      rcases @ih (change nodes child) urn with later | ⟨absent, later⟩
      · rcases each nodes child urn with same | ⟨absent, fresh⟩
        · exact .inl (later.trans same)
        · exact .inr ⟨absent, later.trans fresh⟩
      · rcases each nodes child urn with same | ⟨_, fresh⟩
        · rw [absent] at same
          exact .inr ⟨Option.map_eq_none_iff.mp same.symm, later⟩
        · rw [absent] at fresh
          cases fresh

theorem kept_refreshChild (nodes : OrderedMap String BrowserNode) (child : GraphNode) :
    Kept nodes (ChildBrowser.refreshChild nodes child) := by
  intro urn
  rw [ChildBrowser.refreshChild, OrderedMap.get_set]
  split
  · rename_i here
    subst here
    cases found : nodes.get child.urn with
    | none => exact .inr ⟨rfl, rfl⟩
    | some existing => exact .inl rfl
  · exact .inl rfl

theorem kept_addChild (nodes : OrderedMap String BrowserNode) (child : GraphNode) :
    Kept nodes (ChildBrowser.addChild nodes child) := by
  intro urn
  unfold ChildBrowser.addChild
  split
  · exact .inl rfl
  · rename_i absent
    rw [OrderedMap.get_set]
    split
    · rename_i here
      subst here
      exact .inr ⟨absent, rfl⟩
    · exact .inl rfl

theorem Kept.forward (kept : Kept nodes nodes') {urn : String} (found : nodes.get urn = some entry) :
    ∃ later, nodes'.get urn = some later ∧ later.known = entry.known := by
  rcases kept urn with same | ⟨absent, _⟩
  · rw [found] at same
    exact Option.map_eq_some_iff.mp same
  · cases absent.symm.trans found

theorem Kept.backward (kept : Kept nodes nodes') {urn : String}
    (found : nodes'.get urn = some entry) :
    (∃ before, nodes.get urn = some before ∧ entry.known = before.known) ∨
      entry.known = ([], false, none, false) := by
  rcases kept urn with same | ⟨_, fresh⟩
  · rw [found] at same
    obtain ⟨before, there, known⟩ := Option.map_eq_some_iff.mp same.symm
    exact .inl ⟨before, there, known.symm⟩
  · rw [found] at fresh
    exact .inr (Option.some.inj fresh)

theorem tracked_of_known (known : entry.known = ([], false, none, false)) : Tracked rows entry := by
  simp only [BrowserNode.known, Prod.mk.injEq] at known
  exact tracked_unloaded known.1 known.2.1 known.2.2.2

theorem get_updateParent {urn other : String} {update : BrowserNode → BrowserNode} :
    (ChildBrowser.updateParent nodes urn update).get other =
      if urn = other then (nodes.get other).map update else nodes.get other := by
  unfold ChildBrowser.updateParent
  split
  · rename_i entry found
    rw [OrderedMap.get_set]
    split
    · rename_i here
      subst here
      rw [found, Option.map_some]
    · rfl
  · rename_i absent
    split
    · rename_i here
      subst here
      rw [absent, Option.map_none]
    · rfl

end Entries

structure ChildBrowser.Sound (graph : List Containment) (types : List String)
    (browser : ChildBrowser) : Prop where
  tracked : ∀ urn entry, browser.nodes.get urn = some entry →
    Tracked (containments graph types urn) entry
  parents : ∀ child parent, browser.parentMap.get child = some parent →
    ∃ row ∈ containments graph types parent, row.childUrn = child
  requests : ∀ parentUrn cursor, .more parentUrn cursor ∈ browser.requests →
    ∃ entry, browser.nodes.get parentUrn = some entry ∧ entry.loaded = true ∧
      Covers Containment.name (containments graph types parentUrn)
        (·.childUrn ∈ entry.childIds) (queried cursor)

section Steps

variable {graph order page : List Containment} {types : List String} {browser next : ChildBrowser}
  {urn : String} {event : ChildEvent}

namespace ChildBrowser.Sound

theorem withParents (sound : browser.Sound graph types)
    (listed : ∀ row ∈ page, row ∈ containments graph types urn) (child parent : String)
    (found : (browser.withParents (getChildrenWithEdges pageSize page)).get child = some parent) :
    ∃ row ∈ containments graph types parent, row.childUrn = child := by
  have entered (rows : List Containment) (parents : OrderedMap String String)
      (inside : ∀ row ∈ rows, row ∈ containments graph types urn)
      (before : ∀ child parent, parents.get child = some parent →
        ∃ row ∈ containments graph types parent, row.childUrn = child)
      (found : ((rows.map fun row => (row.parentUrn, row.childUrn)).foldl
        (fun parents edge => parents.set edge.2 edge.1) parents).get child = some parent) :
      ∃ row ∈ containments graph types parent, row.childUrn = child := by
    induction rows generalizing parents with
    | nil => exact before child parent found
    | cons row rest ih =>
        obtain ⟨here, later⟩ := List.forall_mem_cons.mp inside
        refine ih _ later ?_ found
        intro child parent entered
        rw [OrderedMap.get_set] at entered
        split at entered
        · rename_i same
          cases entered
          have isParent := (of_decide_eq_true (List.mem_filter.mp here).2).1
          subst isParent
          exact ⟨row, here, same⟩
        · exact before child parent entered
  exact entered page _ listed sound.parents found

/-- What an answer changes at its own node keeps the requests for further pages up to date. -/
theorem answered (sound : browser.Sound graph types) {nodes : OrderedMap String BrowserNode}
    {update : BrowserNode → BrowserNode} {requests : List ChildRequest}
    (listed : ∀ row ∈ page, row ∈ containments graph types urn)
    (kept : Kept browser.nodes nodes) (fewer : requests ⊆ browser.requests)
    (tracked : ∀ entry, nodes.get urn = some entry →
      Tracked (containments graph types urn) (update entry))
    (grows : ∀ entry, nodes.get urn = some entry → entry.loaded = true →
      (update entry).loaded = true ∧ entry.childIds ⊆ (update entry).childIds) :
    Sound graph types
      ⟨updateParent nodes urn update, browser.withParents (getChildrenWithEdges pageSize page),
        requests⟩ where
  tracked := by
    intro other entry found
    rw [get_updateParent] at found
    split at found
    · rename_i here
      subst here
      obtain ⟨before, there, rfl⟩ := Option.map_eq_some_iff.mp found
      exact tracked before there
    · rcases kept.backward found with ⟨before, there, known⟩ | fresh
      · exact (sound.tracked other before there).congr known
      · exact tracked_of_known fresh
  parents := sound.withParents listed
  requests := by
    intro parentUrn cursor member
    obtain ⟨entry, found, loaded, covers⟩ := sound.requests parentUrn cursor (fewer member)
    obtain ⟨later, there, known⟩ := kept.forward found
    simp only [BrowserNode.known, Prod.mk.injEq] at known
    rw [get_updateParent]
    split
    · rename_i here
      subst here
      obtain ⟨stays, more⟩ := grows later there (known.2.2.2.trans loaded)
      refine ⟨update later, by rw [there, Option.map_some], stays, ?_⟩
      exact covers.mono fun row listed => more (known.1 ▸ listed)
    · refine ⟨later, there, known.2.2.2.trans loaded, ?_⟩
      rw [known.1]
      exact covers

theorem expanded (sound : browser.Sound graph types) {requests : List ChildRequest}
    (fewer : requests ⊆ browser.requests)
    (isPage : IsPage Containment.name (containments graph types urn) pageSize none order page)
    (first : ∀ entry, browser.nodes.get urn = some entry → entry.loaded = false) :
    Sound graph types ({ browser with requests := requests }.expanded urn
      (getChildrenWithEdges pageSize page)) := by
  have kept : Kept browser.nodes ((page.map Containment.child).foldl refreshChild browser.nodes) :=
    kept_foldl kept_refreshChild
  refine sound.answered (fun row => isPage.mem_rows) kept fewer ?_ ?_
  · intro entry _
    have urns : ((getChildrenWithEdges pageSize page).children.map GraphNode.urn) =
        page.map Containment.childUrn := List.map_map
    have nothing : Covers Containment.name (containments graph types urn) (fun _ => False) none :=
      covers_none
    refine tracked_page isPage nothing rfl rfl rfl ?_ ?_ ?_ ?_
    · intro id member
      rw [urns] at member
      obtain ⟨row, there, rfl⟩ := List.mem_map.mp member
      exact ⟨row, isPage.mem_rows there, rfl⟩
    · rw [urns]
      exact nodup_page isPage
    · exact fun _ never => never.elim
    · intro row there
      rw [urns]
      exact List.mem_map_of_mem there
  · intro entry there loaded
    rcases kept.backward there with ⟨before, found, known⟩ | fresh
    · simp only [BrowserNode.known, Prod.mk.injEq] at known
      cases loaded.symm.trans (known.2.2.2.trans (first before found))
    · simp only [BrowserNode.known, Prod.mk.injEq] at fresh
      cases loaded.symm.trans fresh.2.2.2

theorem loadedMore (sound : browser.Sound graph types) {requests : List ChildRequest}
    {cursor : Option String} (fewer : requests ⊆ browser.requests)
    (isPage : IsPage Containment.name (containments graph types urn) pageSize (queried cursor)
      order page)
    (asked : .more urn cursor ∈ browser.requests) :
    Sound graph types ({ browser with requests := requests }.loadedMore urn
      (getChildrenWithEdges pageSize page)) := by
  have kept : Kept browser.nodes ((page.map Containment.child).foldl addChild browser.nodes) :=
    kept_foldl kept_addChild
  have urns : ((getChildrenWithEdges pageSize page).children.map GraphNode.urn) =
      page.map Containment.childUrn := List.map_map
  obtain ⟨known, found, loaded, covers⟩ := sound.requests urn cursor asked
  refine sound.answered (fun row => isPage.mem_rows) kept fewer ?_ ?_
  · intro entry there
    obtain ⟨later, there', same⟩ := kept.forward found
    cases there.symm.trans there'
    have tracked := (sound.tracked urn known found).congr same
    simp only [BrowserNode.known, Prod.mk.injEq] at same
    rw [← same.1] at covers
    refine tracked_page isPage covers (same.2.2.2.trans loaded) rfl rfl ?_ ?_ ?_ ?_
    · intro id member
      rcases List.mem_append.mp member with old | new
      · exact tracked.only id old
      · rw [urns] at new
        obtain ⟨row, inside, rfl⟩ := List.mem_map.mp (List.mem_filter.mp new).1
        exact ⟨row, isPage.mem_rows inside, rfl⟩
    · intro distinct
      rw [urns]
      refine List.nodup_append'.mpr ⟨tracked.once distinct, (nodup_page isPage distinct).filter _, ?_⟩
      intro id old new
      exact of_decide_eq_true (List.mem_filter.mp new).2 old
    · exact fun row listed => List.mem_append_left _ listed
    · intro row inside
      by_cases old : row.childUrn ∈ entry.childIds
      · exact List.mem_append_left _ old
      · refine List.mem_append_right _ (List.mem_filter.mpr ⟨?_, decide_eq_true old⟩)
        rw [urns]
        exact List.mem_map_of_mem inside
  · exact fun entry _ loaded => ⟨loaded, List.subset_append_left _ _⟩

end ChildBrowser.Sound

theorem sound_step (sound : browser.Sound graph types) (expandsOnce : browser.ExpandsOnce event)
    (stepped : browser.step graph types event = some next) : next.Sound graph types := by
  cases event with
  | expandNode urn =>
      cases stepped
      unfold ChildBrowser.expandNode
      split
      · exact sound
      · refine ⟨sound.tracked, sound.parents, ?_⟩
        intro parentUrn cursor member
        rcases List.mem_append.mp member with old | new
        · exact sound.requests parentUrn cursor old
        · cases List.mem_singleton.mp new
  | loadMoreChildren parentUrn =>
      cases stepped
      unfold ChildBrowser.loadMoreChildren
      split
      · rename_i entry asked
        obtain ⟨found, more⟩ := Option.filter_eq_some_iff.mp asked
        have tracked := sound.tracked parentUrn entry found
        have loaded : entry.loaded = true := by
          by_contra unloaded
          cases more.symm.trans (tracked.unloaded (Bool.eq_false_iff.mpr unloaded))
        refine ⟨sound.tracked, sound.parents, ?_⟩
        intro other cursor member
        rcases List.mem_append.mp member with old | new
        · exact sound.requests other cursor old
        · cases List.mem_singleton.mp new
          exact ⟨entry, found, loaded, tracked.covers loaded more⟩
      · exact sound
  | responds index order page =>
      obtain ⟨request, asked, continued⟩ := Option.bind_eq_some_iff.mp stepped
      have fewer : browser.requests.eraseIdx index ⊆ browser.requests :=
        (List.eraseIdx_sublist _ _).subset
      split at continued
      · rename_i isPage
        cases continued
        cases request with
        | expand urn =>
            refine sound.expanded fewer isPage ?_
            intro entry found
            have first := expandsOnce (.expand urn) asked rfl
            rw [ChildRequest.urn, found, Option.all_some] at first
            simpa using first
        | more parentUrn cursor =>
            exact sound.loadedMore fewer isPage (List.mem_of_getElem? asked)
      · cases continued

theorem sound_start (topLevel : List GraphNode) :
    (ChildBrowser.start topLevel).Sound graph types where
  tracked := by
    have fresh (nodes : OrderedMap String BrowserNode)
        (before : ∀ urn entry, nodes.get urn = some entry →
          entry.known = ([], false, none, false)) (urn : String) (entry : BrowserNode)
        (found : (topLevel.foldl (fun nodes node => nodes.set node.urn (.fresh node)) nodes).get
          urn = some entry) : entry.known = ([], false, none, false) := by
      induction topLevel generalizing nodes with
      | nil => exact before urn entry found
      | cons node rest ih =>
          refine ih _ ?_ found
          intro other entry there
          rw [OrderedMap.get_set] at there
          split at there
          · cases there
            rfl
          · exact before other entry there
    intro urn entry found
    exact tracked_of_known (fresh OrderedMap.empty (fun _ _ none => by cases none) urn entry found)
  parents _ _ none := by cases none
  requests _ _ member := by cases member

theorem ChildBrowser.Sound.faithful (sound : browser.Sound graph types) :
    browser.Faithful graph types where
  shows urn entry found loaded :=
    have tracked := sound.tracked urn entry found
    ⟨tracked.only, tracked.once, tracked.all loaded⟩
  parents := sound.parents

end Steps

/-- The columns of a table, more than a page of them, in the order of their names. -/
def columns : List Containment :=
  (List.range (pageSize + 1)).map fun index =>
    let name := String.singleton (Char.ofNat (0x4E00 + index))
    ⟨"table", "CONTAINS", ⟨"column:" ++ name, name, 0⟩⟩

/-- The first page comes in reverse, so its first column comes again on the page behind it. -/
def browsing : List ChildEvent :=
  [.expandNode "table", .responds 0 columns (columns.take pageSize).reverse,
    .loadMoreChildren "table", .responds 0 (columns.drop 1) ((columns.drop 1).take pageSize)]

end Univiz.EntityBrowser
