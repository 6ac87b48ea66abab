import Univiz.Data.Transition

namespace Univiz.EntityBrowser

open Univiz.Data

/-! The top level of `useEntityBrowser`: its actions, their requests and the responses. -/

def pageSize : Nat := 50

structure TopLevelMetadata where
  rootTypeCount : Nat
  orphanCount : Nat
deriving DecidableEq, Repr

/-- The urns of a page, and what comes with them. -/
structure TopLevelNodesResult (κ : Type) where
  nodes : List String
  totalCount : Nat
  hasMore : Bool
  nextCursor : Option κ
  metadata : TopLevelMetadata

/-- A provider has one ordered list for each type filter and query.  A cursor tells how many
of its nodes lie before a page, and may be read against another list as well. -/
structure GraphDataProvider (κ : Type) where
  topLevel : Option String → Option String → List String
  distinct : ∀ entityType searchQuery, (topLevel entityType searchQuery).Nodup
  metadata : Option String → Option String → TopLevelMetadata
  cursorAt : Option String → Option String → Nat → κ
  offset : Option String → Option String → κ → Nat
  offset_cursorAt : ∀ entityType searchQuery count,
    offset entityType searchQuery (cursorAt entityType searchQuery count) = count

inductive MergeMode where
  | replace
  | append
deriving DecidableEq, Repr

/-- A call of `getTopLevelNodes`, and what is to be done with its result. -/
structure TopLevelRequest (ρ κ : Type) where
  provider : ρ
  entityType : Option String
  searchQuery : Option String
  cursor : Option κ
  mode : MergeMode

/-- The debounce timer of a search runs with the provider and the query of its start. -/
structure SearchTimer (ρ : Type) where
  provider : ρ
  query : String

structure UseEntityBrowser (ρ κ : Type) where
  provider : ρ
  topLevelIds : List String
  topLevelHasMore : Bool
  topLevelCursor : Option κ
  topLevelTotalCount : Nat
  topLevelMetadata : TopLevelMetadata
  searchQuery : String
  typeFilter : Option String
  searchTimer : Option (SearchTimer ρ)
  requests : List (TopLevelRequest ρ κ)

inductive BrowserEvent (ρ : Type) where
  | loadTopLevel
  | loadMoreTopLevel
  | setSearch (query : String)
  | searchTimerFires
  | setTypeFilter (typeId : Option String)
  | refresh
  | providerChange (provider : ρ)
  | responds (request : Nat)
deriving DecidableEq, Repr

/-- What `trim` removes. -/
def isWhitespace (char : Char) : Bool :=
  char.toNat ∈ [0x9, 0xA, 0xB, 0xC, 0xD, 0x20, 0xA0, 0x1680, 0x2028, 0x2029, 0x202F, 0x205F,
    0x3000, 0xFEFF] || (0x2000 ≤ char.toNat && char.toNat ≤ 0x200A)

def isBlank (query : String) : Bool := query.toList.all isWhitespace

variable {ρ κ : Type}

/-- The page of a fixed list behind some of its elements. -/
def page (list : List String) (start : Nat) : List String := (list.drop start).take pageSize

/-- A page may have more behind it if it is full. -/
def GraphDataProvider.getTopLevelNodes (provider : GraphDataProvider κ)
    (entityType searchQuery : Option String) (cursor : Option κ) : TopLevelNodesResult κ :=
  let list := provider.topLevel entityType searchQuery
  let start := (cursor.map (provider.offset entityType searchQuery)).getD 0
  let nodes := page list start
  let hasMore := decide (pageSize ≤ nodes.length)
  { nodes := nodes
    totalCount := list.length
    hasMore := hasMore
    nextCursor :=
      if hasMore = true then some (provider.cursorAt entityType searchQuery (start + nodes.length))
      else none
    metadata := provider.metadata entityType searchQuery }

namespace UseEntityBrowser

variable (browser : UseEntityBrowser ρ κ)

def mergeTopLevelResult (result : TopLevelNodesResult κ) (mode : MergeMode) :
    UseEntityBrowser ρ κ :=
  { browser with
    topLevelIds := match mode with
      | .replace => result.nodes
      | .append => browser.topLevelIds ++
          result.nodes.filter fun urn => urn ∉ browser.topLevelIds
    topLevelHasMore := result.hasMore
    topLevelCursor := result.nextCursor
    topLevelTotalCount := result.totalCount
    topLevelMetadata := result.metadata }

@[simp] theorem topLevelIds_replace (result : TopLevelNodesResult κ) :
    (browser.mergeTopLevelResult result .replace).topLevelIds = result.nodes := rfl

@[simp] theorem topLevelIds_append (result : TopLevelNodesResult κ) :
    (browser.mergeTopLevelResult result .append).topLevelIds =
      browser.topLevelIds ++ result.nodes.filter (· ∉ browser.topLevelIds) := rfl

/-- An empty filter counts as none. -/
def activeFilter : Option String := browser.typeFilter.filter (· ≠ "")

def activeQuery : Option String :=
  if isBlank browser.searchQuery = true then none else some browser.searchQuery

def sends (request : TopLevelRequest ρ κ) : UseEntityBrowser ρ κ :=
  { browser with requests := browser.requests ++ [request] }

def loadTopLevel : UseEntityBrowser ρ κ :=
  browser.sends ⟨browser.provider, browser.activeFilter, none, none, .replace⟩

def loadMoreTopLevel : UseEntityBrowser ρ κ :=
  if browser.topLevelHasMore = true then
    browser.sends ⟨browser.provider, browser.activeFilter, none, browser.topLevelCursor, .append⟩
  else browser

/-- A blank query loads at once, and any other one after the debounce. -/
def setSearch (query : String) : UseEntityBrowser ρ κ :=
  let cleared := { browser with searchQuery := query, searchTimer := none }
  if isBlank query = true then cleared.loadTopLevel
  else { cleared with searchTimer := some ⟨browser.provider, query⟩ }

def search (timer : SearchTimer ρ) : UseEntityBrowser ρ κ :=
  { browser with searchTimer := none }.sends
    ⟨timer.provider, browser.activeFilter, some timer.query, none, .replace⟩

def refresh : UseEntityBrowser ρ κ :=
  if isBlank browser.searchQuery = true then browser.loadTopLevel
  else browser.setSearch browser.searchQuery

def setTypeFilter (typeId : Option String) : UseEntityBrowser ρ κ :=
  { browser with typeFilter := typeId }.refresh

/-- The reset for a new provider, after which the caller loads the top level. -/
def providerChange (provider : ρ) : UseEntityBrowser ρ κ :=
  { browser with
    provider := provider
    topLevelIds := []
    topLevelHasMore := false
    topLevelCursor := none
    topLevelTotalCount := 0
    topLevelMetadata := ⟨0, 0⟩ }.loadTopLevel

def responded (providers : ρ → GraphDataProvider κ) (index : Nat)
    (request : TopLevelRequest ρ κ) : UseEntityBrowser ρ κ :=
  { browser with requests := browser.requests.eraseIdx index }.mergeTopLevelResult
    ((providers request.provider).getTopLevelNodes request.entityType request.searchQuery
      request.cursor) request.mode

/-- The caller loads the top level as soon as the browser is there. -/
def start (provider : ρ) : UseEntityBrowser ρ κ :=
  ({ provider := provider
     topLevelIds := []
     topLevelHasMore := false
     topLevelCursor := none
     topLevelTotalCount := 0
     topLevelMetadata := ⟨0, 0⟩
     searchQuery := ""
     typeFilter := none
     searchTimer := none
     requests := [] } : UseEntityBrowser ρ κ).loadTopLevel

def step (providers : ρ → GraphDataProvider κ) (browser : UseEntityBrowser ρ κ) :
    BrowserEvent ρ → Option (UseEntityBrowser ρ κ)
  | .loadTopLevel => some browser.loadTopLevel
  | .loadMoreTopLevel => some browser.loadMoreTopLevel
  | .setSearch query => some (browser.setSearch query)
  | .searchTimerFires => browser.searchTimer.map browser.search
  | .setTypeFilter typeId => some (browser.setTypeFilter typeId)
  | .refresh => some browser.refresh
  | .providerChange provider => some (browser.providerChange provider)
  | .responds index => browser.requests[index]?.map (browser.responded providers index)

end UseEntityBrowser

end Univiz.EntityBrowser
