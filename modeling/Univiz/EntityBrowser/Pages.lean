import Mathlib.Data.List.Nodup
import Univiz.Data.Texts
import Univiz.EntityBrowser.Browser

namespace Univiz.EntityBrowser

open Univiz.Data

/-! When the top level is made of the leading pages of the current list. -/

/-- One or more pages of the list, from its beginning. -/
def LeadingPages (list ids : List String) : Prop :=
  ∃ count, 0 < count ∧ ids = list.take (count * pageSize)

variable {ρ κ : Type} {list : List String}

theorem take_append_filter_drop (distinct : list.Nodup) {loaded start size : Nat}
    (inside : start ≤ (list.take loaded).length) :
    list.take loaded ++ ((list.drop start).take size).filter (· ∉ list.take loaded) =
      list.take (max loaded (start + size)) := by
  have bound : start ≤ loaded := by
    rw [List.length_take] at inside
    omega
  have window : (list.drop start).take size = (list.take (start + size)).drop start := by
    rw [List.drop_take, Nat.add_sub_cancel_left]
  by_cases known : start + size ≤ loaded
  · have none : ((list.drop start).take size).filter (· ∉ list.take loaded) = [] := by
      rw [List.filter_eq_nil_iff]
      intro urn member
      have old : urn ∈ list.take loaded := by
        rw [window] at member
        exact List.take_subset_take_left list known (List.mem_of_mem_drop member)
      simp [old]
    rw [none, List.append_nil, Nat.max_eq_left known]
  · have longer : loaded ≤ start + size := Nat.le_of_not_le known
    have parts : list.take (start + size) =
        list.take loaded ++ (list.drop loaded).take (start + size - loaded) := by
      rw [← List.take_add, Nat.add_sub_cancel' longer]
    have apart : (list.take loaded ++ (list.drop loaded).take (start + size - loaded)).Nodup := by
      rw [← parts]
      exact (List.take_sublist _ _).nodup distinct
    have fresh := (List.nodup_append.mp apart).2.2
    have split : (list.drop start).take size = (list.take loaded).drop start ++
        (list.drop loaded).take (start + size - loaded) := by
      rw [window, parts, List.drop_append_of_le_length inside]
    rw [split, List.filter_append, Nat.max_eq_right longer, parts]
    have old : ((list.take loaded).drop start).filter (· ∉ list.take loaded) = [] := by
      rw [List.filter_eq_nil_iff]
      intro urn member
      simp [List.mem_of_mem_drop member]
    have new : ((list.drop loaded).take (start + size - loaded)).filter (· ∉ list.take loaded) =
        (list.drop loaded).take (start + size - loaded) := by
      rw [List.filter_eq_self]
      intro urn member
      have absent : urn ∉ list.take loaded := fun earlier => fresh urn earlier urn member rfl
      simp [absent]
    rw [old, new, List.nil_append]

/-- A page that begins at most behind the leading pages makes more leading pages. -/
theorem leadingPages_append (distinct : list.Nodup) {ids : List String} {start : Nat}
    (leading : LeadingPages list ids) (boundary : pageSize ∣ start)
    (inside : start ≤ ids.length) :
    LeadingPages list (ids ++ (page list start).filter (· ∉ ids)) := by
  obtain ⟨count, positive, rfl⟩ := leading
  obtain ⟨place, rfl⟩ := boundary
  refine ⟨max count (place + 1), by omega, ?_⟩
  rw [page, take_append_filter_drop distinct inside, Nat.mul_comm pageSize, ← Nat.succ_mul,
    Nat.mul_max_mul_right]

theorem leadingPages_first : LeadingPages list (page list 0) :=
  ⟨1, Nat.one_pos, by rw [page, List.drop_zero, Nat.one_mul]⟩

theorem leadingPages_nodup (distinct : list.Nodup) {ids : List String}
    (leading : LeadingPages list ids) : ids.Nodup := by
  obtain ⟨count, -, rfl⟩ := leading
  exact (List.take_sublist _ _).nodup distinct

def TopLevelRequest.start (providers : ρ → GraphDataProvider κ) (request : TopLevelRequest ρ κ) :
    Nat :=
  (request.cursor.map ((providers request.provider).offset request.entityType
    request.searchQuery)).getD 0

namespace UseEntityBrowser

variable {providers : ρ → GraphDataProvider κ} {browser next : UseEntityBrowser ρ κ}

/-- No request and no debounce timer is pending. -/
def Quiet (browser : UseEntityBrowser ρ κ) : Prop :=
  browser.requests = [] ∧ browser.searchTimer = none

/-- The list for the current provider, type filter and search query. -/
def currentList (providers : ρ → GraphDataProvider κ) (browser : UseEntityBrowser ρ κ) :
    List String :=
  (providers browser.provider).topLevel browser.activeFilter browser.activeQuery

structure UpToDate (providers : ρ → GraphDataProvider κ) (browser : UseEntityBrowser ρ κ) :
    Prop where
  distinct : browser.Quiet → browser.topLevelIds.Nodup
  leading : browser.Quiet → LeadingPages (browser.currentList providers) browser.topLevelIds

/-- The list is yet to be replaced. -/
def Replacing (browser : UseEntityBrowser ρ κ) : Prop :=
  browser.searchTimer.isSome ∨ ∃ request ∈ browser.requests, request.mode = .replace

/-- Unless the list is yet to be replaced, a response is for the current provider, type filter
and query, and a further page begins within or right behind the pages that are there. -/
def Continues (providers : ρ → GraphDataProvider κ) (browser : UseEntityBrowser ρ κ) :
    BrowserEvent ρ → Prop
  | .responds index => ∀ request ∈ browser.requests[index]?,
      ({ browser with requests := browser.requests.eraseIdx index } :
        UseEntityBrowser ρ κ).Replacing ∨
      (request.provider = browser.provider ∧ request.entityType = browser.activeFilter ∧
        request.searchQuery = browser.activeQuery ∧
        (request.mode = .append → pageSize ∣ request.start providers ∧
          request.start providers ≤ browser.topLevelIds.length))
  | _ => True

instance : DecidablePred (@Replacing ρ κ) := fun browser =>
  inferInstanceAs (Decidable (browser.searchTimer.isSome ∨ ∃ request ∈ browser.requests, _))

instance [DecidableEq ρ] : DecidableRel (Continues providers)
  | browser, .responds index =>
      inferInstanceAs (Decidable (∀ request ∈ browser.requests[index]?, _))
  | _, .loadTopLevel | _, .loadMoreTopLevel | _, .setSearch _ | _, .searchTimerFires
  | _, .setTypeFilter _ | _, .refresh | _, .providerChange _ => isTrue trivial

/-- Replacements start at the beginning of a list, and without one the list is right. -/
structure Tidy (providers : ρ → GraphDataProvider κ) (browser : UseEntityBrowser ρ κ) :
    Prop where
  initial : ∀ request ∈ browser.requests, request.mode = .replace → request.cursor = none
  settled : browser.Replacing ∨
    LeadingPages (browser.currentList providers) browser.topLevelIds

theorem sends_initial (initial : ∀ request ∈ browser.requests, request.mode = .replace →
    request.cursor = none) {request : TopLevelRequest ρ κ}
    (first : request.mode = .replace → request.cursor = none) :
    ∀ other ∈ (browser.sends request).requests, other.mode = .replace → other.cursor = none := by
  intro other member
  rcases List.mem_append.mp member with old | new
  · exact initial other old
  · cases List.mem_singleton.mp new
    exact first

theorem loadTopLevel_tidy (initial : ∀ request ∈ browser.requests, request.mode = .replace →
    request.cursor = none) : browser.loadTopLevel.Tidy providers :=
  ⟨sends_initial initial fun _ => rfl,
    .inl (.inr ⟨_, List.mem_append_right _ List.mem_cons_self, rfl⟩)⟩

theorem setSearch_tidy (tidy : browser.Tidy providers) (query : String) :
    (browser.setSearch query).Tidy providers := by
  simp only [setSearch]
  split
  · exact loadTopLevel_tidy tidy.initial
  · exact ⟨tidy.initial, .inl (.inl rfl)⟩

theorem refresh_tidy (tidy : browser.Tidy providers) : browser.refresh.Tidy providers := by
  simp only [refresh]
  split
  · exact loadTopLevel_tidy tidy.initial
  · exact setSearch_tidy tidy _

theorem setTypeFilter_tidy (tidy : browser.Tidy providers) (typeId : Option String) :
    (browser.setTypeFilter typeId).Tidy providers := by
  unfold setTypeFilter refresh
  split
  · exact loadTopLevel_tidy tidy.initial
  · simp only [setSearch]
    split
    · exact loadTopLevel_tidy tidy.initial
    · exact ⟨tidy.initial, .inl (.inl rfl)⟩

theorem loadMoreTopLevel_tidy (tidy : browser.Tidy providers) :
    browser.loadMoreTopLevel.Tidy providers := by
  simp only [loadMoreTopLevel]
  split
  · refine ⟨sends_initial tidy.initial nofun, ?_⟩
    rcases tidy.settled with (timer | ⟨request, member, replaces⟩) | leading
    · exact .inl (.inl timer)
    · exact .inl (.inr ⟨request, List.mem_append_left _ member, replaces⟩)
    · exact .inr leading
  · exact tidy

theorem search_tidy (tidy : browser.Tidy providers) (timer : SearchTimer ρ) :
    (browser.search timer).Tidy providers :=
  ⟨sends_initial tidy.initial fun _ => rfl,
    .inl (.inr ⟨_, List.mem_append_right _ List.mem_cons_self, rfl⟩)⟩

theorem responded_leading {index : Nat} {request : TopLevelRequest ρ κ}
    (tidy : browser.Tidy providers) (found : browser.requests[index]? = some request)
    (last : ¬ ({ browser with requests := browser.requests.eraseIdx index } :
      UseEntityBrowser ρ κ).Replacing)
    (provider : request.provider = browser.provider)
    (entityType : request.entityType = browser.activeFilter)
    (searchQuery : request.searchQuery = browser.activeQuery)
    (continues : request.mode = .append → pageSize ∣ request.start providers ∧
      request.start providers ≤ browser.topLevelIds.length) :
    LeadingPages (browser.currentList providers)
      (browser.responded providers index request).topLevelIds := by
  have same : (providers request.provider).topLevel request.entityType request.searchQuery =
      browser.currentList providers := by
    rw [currentList, provider, entityType, searchQuery]
  have nodes : ((providers request.provider).getTopLevelNodes request.entityType
      request.searchQuery request.cursor).nodes =
      page (browser.currentList providers) (request.start providers) := by
    rw [← same]
    rfl
  cases mode : request.mode with
  | replace =>
      have first : request.start providers = 0 := by
        rw [TopLevelRequest.start, tidy.initial request (List.mem_of_getElem? found) mode]
        rfl
      have shown : (browser.responded providers index request).topLevelIds =
          page (browser.currentList providers) 0 := by
        rw [responded, mode, topLevelIds_replace, nodes, first]
      rw [shown]
      exact leadingPages_first
  | append =>
      have leading : LeadingPages (browser.currentList providers) browser.topLevelIds := by
        refine tidy.settled.resolve_left ?_
        rintro (timer | ⟨other, member, replaces⟩)
        · exact last (.inl timer)
        · obtain ⟨place, listed⟩ := List.mem_iff_getElem?.mp member
          have away : place ≠ index := by
            rintro rfl
            cases found.symm.trans listed
            cases mode.symm.trans replaces
          exact last (.inr ⟨other, List.mem_eraseIdx_iff_getElem?.mpr ⟨place, away, listed⟩,
            replaces⟩)
      have shown : (browser.responded providers index request).topLevelIds =
          browser.topLevelIds ++ (page (browser.currentList providers)
            (request.start providers)).filter (· ∉ browser.topLevelIds) := by
        rw [responded, mode, topLevelIds_append, nodes]
      rw [shown]
      obtain ⟨boundary, inside⟩ := continues mode
      exact leadingPages_append ((providers browser.provider).distinct _ _) leading boundary inside

theorem responded_tidy {index : Nat} {request : TopLevelRequest ρ κ}
    (tidy : browser.Tidy providers) (found : browser.requests[index]? = some request)
    (continues : browser.Continues providers (.responds index)) :
    (browser.responded providers index request).Tidy providers := by
  refine ⟨fun other member => tidy.initial other (List.mem_of_mem_eraseIdx member), ?_⟩
  by_cases last : ({ browser with requests := browser.requests.eraseIdx index } :
      UseEntityBrowser ρ κ).Replacing
  · exact .inl last
  · obtain ⟨provider, entityType, searchQuery, further⟩ :=
      (continues request found).resolve_left last
    exact .inr (responded_leading tidy found last provider entityType searchQuery further)

theorem step_tidy {event : BrowserEvent ρ} (tidy : browser.Tidy providers)
    (continues : browser.Continues providers event)
    (stepped : step providers browser event = some next) : next.Tidy providers := by
  cases event with
  | loadTopLevel =>
      cases stepped
      exact loadTopLevel_tidy tidy.initial
  | loadMoreTopLevel =>
      cases stepped
      exact loadMoreTopLevel_tidy tidy
  | setSearch query =>
      cases stepped
      exact setSearch_tidy tidy query
  | searchTimerFires =>
      obtain ⟨timer, -, rfl⟩ := Option.map_eq_some_iff.mp stepped
      exact search_tidy tidy timer
  | setTypeFilter typeId =>
      cases stepped
      exact setTypeFilter_tidy tidy typeId
  | refresh =>
      cases stepped
      exact refresh_tidy tidy
  | providerChange provider =>
      cases stepped
      exact loadTopLevel_tidy tidy.initial
  | responds index =>
      obtain ⟨request, found, rfl⟩ := Option.map_eq_some_iff.mp stepped
      exact responded_tidy tidy found continues

theorem start_tidy (provider : ρ) : (start provider : UseEntityBrowser ρ κ).Tidy providers :=
  loadTopLevel_tidy nofun

theorem tidy_upToDate (tidy : browser.Tidy providers) : browser.UpToDate providers := by
  have leading (quiet : browser.Quiet) :
      LeadingPages (browser.currentList providers) browser.topLevelIds := by
    refine tidy.settled.resolve_left ?_
    rintro (timer | ⟨request, member, -⟩)
    · rw [quiet.2] at timer
      cases timer
    · rw [quiet.1] at member
      cases member
  exact ⟨fun quiet => leadingPages_nodup ((providers browser.provider).distinct _ _)
    (leading quiet), leading⟩

/-- The top level is up to date after every run whose responses continue it. -/
theorem run_upToDate {provider : ρ} {events : List (BrowserEvent ρ)}
    {last : UseEntityBrowser ρ κ}
    (continues : Meets (step providers) (Continues providers) (start provider) events)
    (ran : run (step providers) (start provider) events = some last) : last.UpToDate providers :=
  tidy_upToDate (run_invariant (Tidy providers)
    (fun _ _ _ tidy allowed stepped => step_tidy tidy allowed stepped) (start_tidy provider)
    continues ran)

def numbered (label : String) (count : Nat) : List String :=
  (List.range count).map fun number => label ++ number.repr

theorem numbered_nodup (label : String) (count : Nat) : (numbered label count).Nodup := by
  refine List.Nodup.map ?_ List.nodup_range
  intro number other same
  have digits : number.repr.toList = other.repr.toList := by
    have chars := congrArg String.toList same
    rw [String.toList_append, String.toList_append] at chars
    exact List.append_cancel_left chars
  have values := congrArg Decimal.digits digits
  rw [Decimal.digits_repr, Decimal.digits_repr] at values
  exact Option.some.inj values

/-- A graph with sixty nodes, and fifty others that any search finds. -/
def catalog : GraphDataProvider Nat where
  topLevel _ searchQuery := match searchQuery with
    | none => numbered "a" 60
    | some _ => numbered "b" 50
  distinct _ searchQuery := by
    cases searchQuery with
    | none => exact numbered_nodup _ _
    | some query => exact numbered_nodup _ _
  metadata _ _ := ⟨0, 0⟩
  cursorAt _ _ count := count
  offset _ _ cursor := cursor
  offset_cursorAt _ _ _ := rfl

/-- The second page is loaded behind the first. -/
def paged : List (BrowserEvent Nat) := [.responds 0, .loadMoreTopLevel, .responds 0]

theorem paged_upToDate : ∃ last : UseEntityBrowser Nat Nat,
    run (step fun _ => catalog) (start 0) paged = some last ∧ last.topLevelIds.length = 60 ∧
      last.UpToDate fun _ => catalog := by
  have ended : (run (step fun _ => catalog) (start 0 : UseEntityBrowser Nat Nat) paged).map
      (fun last => last.topLevelIds.length) = some 60 := by decide +kernel
  obtain ⟨last, ran, length⟩ := Option.map_eq_some_iff.mp ended
  refine ⟨last, ran, length, run_upToDate ?_ ran⟩
  decide +kernel

/-- A response of the first load comes behind that of a search, a search is paged, and the
provider changes during a search. -/
def outdated : List (List (BrowserEvent Nat)) :=
  [[.setSearch "b", .searchTimerFires, .responds 1, .responds 0],
    [.responds 0, .setSearch "b", .searchTimerFires, .responds 0, .loadMoreTopLevel,
      .responds 0],
    [.responds 0, .setSearch "b", .searchTimerFires, .responds 0, .providerChange 1,
      .responds 0]]

theorem outdated_ids : ∀ events ∈ outdated,
    (run (step fun _ => catalog) (start 0 : UseEntityBrowser Nat Nat) events).map (fun last =>
      (last.requests.isEmpty, last.searchTimer.isNone,
        last.topLevelIds.any fun urn => urn ∉ last.currentList fun _ => catalog)) =
      some (true, true, true) := by
  decide +kernel

theorem outdated_not_upToDate : ¬ ∃ events ∈ outdated, ∀ last : UseEntityBrowser Nat Nat,
    run (step fun _ => catalog) (start 0) events = some last →
      last.UpToDate fun _ => catalog := by
  intro ⟨events, member, always⟩
  obtain ⟨last, ran, shape⟩ := Option.map_eq_some_iff.mp (outdated_ids events member)
  simp only [Prod.mk.injEq, List.isEmpty_iff, Option.isNone_iff_eq_none, List.any_eq_true,
    decide_eq_true_eq] at shape
  obtain ⟨requests, timer, urn, shown, foreign⟩ := shape
  obtain ⟨count, -, ids⟩ := (always last ran).leading ⟨requests, timer⟩
  rw [ids] at shown
  exact foreign (List.mem_of_mem_take shown)

end UseEntityBrowser

end Univiz.EntityBrowser
