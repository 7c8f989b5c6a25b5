import Zbierak.IssueListing
import Zbierak.Lib.Paging
import Mathlib.Data.List.Perm.Basic

/-!
# Reading all pages of a listing

A client reads a listing at the offsets 0, L, 2L and so on until a page is empty.
Every request is a query of its own, which may order rows with equal keys as it
likes. Events are ordered down to their ids, issues by their last activity only.
-/
namespace Zbierak.Pagination

open IssueApi
open IssueListing (Scan Matches answers segments)
open Paging (Browse)

def newestFirst (a b : IssueJson) : Prop := b.lastSeenAt ≤ a.lastSeenAt

instance : DecidableRel newestFirst := fun a b => inferInstanceAs (Decidable (b.lastSeenAt ≤ a.lastSeenAt))

instance : Std.Total newestFirst := ⟨fun a b => le_total b.lastSeenAt a.lastSeenAt⟩

instance : IsTrans IssueJson newestFirst := ⟨fun _ _ _ hab hbc => le_trans hbc hab⟩

/-- A user, a project and a filter that `list_issues` accepts. -/
structure Accepted (db : Db) (userId : Int) (slug : String) (query : IssueListQuery)
    (projectId : Int) (tags : List String) : Prop where
  status : ∀ raw ∈ query.status, (IssueStatus.parse raw).isSome
  tags : filterTags query.tag = .ok tags
  role : Auth.requireProjectRole db userId slug .viewer = .ok projectId

/-- The pages of `limit` issues that the requests at all offsets may answer. -/
def IssuePages (db : Db) (userId : Int) (slug : String) (query : IssueListQuery) (limit : Nat)
    (page : Nat → List IssueJson) : Prop :=
  ∀ offset, ∃ scan : Scan, listIssues scan.issues db userId slug
    { query with limit := some limit, offset := some offset } = .ok (.issues (page offset))

section Issues

variable {db : Db} {userId : Int} {slug : String} {query : IssueListQuery} {projectId : Int}
  {tags : List String} {limit : Nat}

theorem Accepted.listIssues (h : Accepted db userId slug query projectId tags) (hpos : 1 ≤ limit)
    (hmax : limit ≤ 200) (scan : Scan) (offset : Nat) :
    listIssues scan.issues db userId slug { query with limit := some limit, offset := some offset } =
      .ok (.issues (IssueListing.fetchIssues scan db projectId tags query.status limit offset)) := by
  have hstatus : query.status.any (fun raw => (IssueStatus.parse raw).isNone) = false := by
    cases hquery : query.status with
    | none => rfl
    | some raw => simpa using h.status raw hquery
  rw [IssueListing.fetchIssues_eq]
  simp [IssueApi.listIssues, hstatus, h.tags, h.role, hpos, hmax, bind, Except.bind]

theorem nodup_answers (db : Db) (projectId : Int) (status : Option String) (required : List String) :
    (answers db projectId status required).Nodup := by
  have hkeys : ((answers db projectId status required).map IssueJson.id).Nodup := by
    rw [answers, List.map_map]
    exact db.issues.keys_nodup.sublist (List.filter_sublist.map Prod.fst)
  exact hkeys.of_map IssueJson.id

/-- Every sorted order of the matching issues is the order of some query. -/
theorem exists_scan (h : filterTags query.tag = .ok tags) {answer : List IssueJson}
    (hanswer : Paging.Answer newestFirst
      (answers db projectId query.status (segments query.tag)) answer) :
    ∃ scan : Scan,
      (IssueListing.matching scan db projectId tags query.status).map (issueJson db) = answer := by
  obtain ⟨l, hperm, rfl⟩ := Paging.exists_map_of_perm hanswer.perm rfl
  let other := db.issues.rows.filter fun row =>
    !decide (Matches db projectId query.status (segments query.tag) row)
  let visit := fun rows => if rows = db.issues.rows then l ++ other else rows
  have hvisit : ∀ rows, (visit rows).Perm rows := by
    intro rows
    by_cases hrows : rows = db.issues.rows
    · subst hrows
      simp only [visit, if_true]
      exact (hperm.append_right other).trans (List.filter_append_perm _ _)
    · simp only [visit, if_neg hrows]
      exact .refl _
  refine ⟨⟨visit, id, hvisit, fun _ => .refl _⟩, congrArg _ ?_⟩
  have hmine : l.filter (Matches db projectId query.status (segments query.tag)) = l := by
    rw [List.filter_eq_self]
    intro row hrow
    exact (List.mem_filter.mp (hperm.mem_iff.mp hrow)).2
  have hother : other.filter (Matches db projectId query.status (segments query.tag)) = [] := by
    rw [List.filter_eq_nil_iff]
    intro row hrow
    simpa using (List.mem_filter.mp hrow).2
  have hsorted : l.Pairwise fun a b => b.2.lastSeenAt ≤ a.2.lastSeenAt :=
    List.pairwise_map.mp hanswer.sorted
  simp only [IssueListing.matching, IssueListing.matches_iff h, visit, if_true, List.filter_append]
  rw [hmine, hother, List.append_nil, hsorted.insertionSort_eq]

/-- What the requests may answer are windows of sorted orders, one for each request. -/
theorem issuePages_iff (h : Accepted db userId slug query projectId tags) (hpos : 1 ≤ limit)
    (hmax : limit ≤ 200) (page : Nat → List IssueJson) :
    IssuePages db userId slug query limit page ↔ Paging.Windows newestFirst
      (answers db projectId query.status (segments query.tag)) limit page := by
  refine forall_congr' fun offset => ?_
  constructor
  · rintro ⟨scan, hscan⟩
    rw [h.listIssues hpos hmax, IssueListing.fetchIssues_window] at hscan
    refine ⟨_, ⟨(IssueListing.matching_perm scan db projectId query.status h.tags).map _,
      IssueListing.sorted_matching scan db projectId tags query.status⟩, ?_⟩
    simpa using hscan.symm
  · rintro ⟨answer, hanswer, hpage⟩
    obtain ⟨scan, rfl⟩ := exists_scan h.tags hanswer
    refine ⟨scan, ?_⟩
    rw [h.listIssues hpos hmax, IssueListing.fetchIssues_window, hpage]

end Issues

/-- No boundary between two pages falls among items of equal last activity. -/
def NoTieAcross (items : List IssueJson) (limit : Nat) : Prop :=
  ∀ k, ∀ item ∈ items,
    ¬ (items.countP (fun other => item.lastSeenAt < other.lastSeenAt) < k * limit ∧
      k * limit < items.countP fun other => item.lastSeenAt ≤ other.lastSeenAt)

theorem noTieAcross_iff (items : List IssueJson) (limit : Nat) :
    NoTieAcross items limit ↔ ∀ k, Paging.Clean newestFirst items (k * limit) := by
  have hbefore : ∀ item : IssueJson, items.countP (fun other => item.lastSeenAt < other.lastSeenAt) =
      Paging.before newestFirst items item := fun item =>
    List.countP_congr fun other _ => by
      simp only [newestFirst, decide_eq_true_eq, not_le]
      exact ⟨fun h => ⟨h.le, h⟩, And.right⟩
  simp only [NoTieAcross, hbefore]
  exact Iff.rfl

/-- The events of an issue with their producer ids, in no particular order. -/
def joined (db : Db) (issueId : Int) : List (String × EventRow) :=
  db.events.flatMap fun e =>
    if e.issueId = issueId then
      (db.rawEvents.filter fun r => r.id = e.id).map fun r => (r.producerEventId, e)
    else []

/-- The same rows, visited in another order. -/
structure Reordered (db db' : Db) : Prop where
  events : db'.events.Perm db.events
  rawEvents : db'.rawEvents.Perm db.rawEvents
  frame : db' = { db with events := db'.events, rawEvents := db'.rawEvents }

/-- The pages of `limit` events that the requests at all offsets may answer. -/
def EventPages (env : Crates) (db : Db) (userId : Int) (slug : String) (issueId : Int) (limit : Nat)
    (page : Nat → List ApiEventJson) : Prop :=
  ∀ offset, ∃ db', Reordered db db' ∧
    listIssueEvents env db' userId slug issueId ⟨some limit, some offset⟩ = .ok (.events (page offset))

section Events

variable {db : Db} {issueId : Int}

theorem Reordered.joined {db' : Db} (h : Reordered db db') (issueId : Int) :
    (joined db' issueId).Perm (joined db issueId) := by
  refine (h.events.flatMap_right _).trans (List.Perm.flatMap_left _ fun e _ => ?_)
  split
  · exact (h.rawEvents.filter _).map _
  · exact .refl _

theorem sublist_singleton {α : Type} {l : List α} {a : α} (hnodup : l.Nodup) (hall : ∀ x ∈ l, x = a) :
    l.Sublist [a] := by
  cases l with
  | nil => exact List.nil_sublist _
  | cons x xs =>
    obtain rfl := hall x List.mem_cons_self
    have hnil : xs = [] := List.eq_nil_iff_forall_not_mem.mpr fun y hy =>
      (List.nodup_cons.mp hnodup).1 (hall y (List.mem_cons_of_mem x hy) ▸ hy)
    rw [hnil]

/-- An event is joined with at most one raw event. -/
theorem joined_ids (hraw : (db.rawEvents.map RawEvent.id).Nodup) (issueId : Int) :
    ((joined db issueId).map fun row => row.2.id).Sublist (db.events.map EventRow.id) := by
  unfold joined
  induction db.events with
  | nil => exact List.Sublist.refl _
  | cons e rest ih =>
    rw [List.flatMap_cons, List.map_append, List.map_cons, ← List.singleton_append]
    refine List.Sublist.append ?_ ih
    split
    · rw [List.map_map]
      have hkeys : ((db.rawEvents.filter fun r => r.id = e.id).map RawEvent.id).Sublist [e.id] := by
        refine sublist_singleton (hraw.sublist (List.filter_sublist.map _)) fun x hx => ?_
        obtain ⟨r, hr, rfl⟩ := List.mem_map.mp hx
        simpa using (List.mem_filter.mp hr).2
      rwa [List.map_congr_left fun r hr => show RawEvent.id r = _ by
        simpa using (List.mem_filter.mp hr).2] at hkeys
    · exact List.nil_sublist _

/-- The order of the query: newest first, and by id among events of one second. -/
def eventOrder (a b : String × EventRow) : Prop :=
  b.2.receivedAt < a.2.receivedAt ∨ (a.2.receivedAt = b.2.receivedAt ∧ a.2.id ≤ b.2.id)

instance : DecidableRel eventOrder := fun _ _ => inferInstanceAs (Decidable (_ ∨ _ ∧ _))

instance : Std.Total eventOrder where
  total a b := by
    simp only [eventOrder]
    rcases lt_trichotomy a.2.receivedAt b.2.receivedAt with h | h | h
    · exact .inr (.inl h)
    · rcases le_total a.2.id b.2.id with hid | hid
      · exact .inl (.inr ⟨h, hid⟩)
      · exact .inr (.inr ⟨h.symm, hid⟩)
    · exact .inl (.inl h)

instance : IsTrans (String × EventRow) eventOrder where
  trans a b c hab hbc := by
    rcases hab with hab | ⟨hab, hid⟩ <;> rcases hbc with hbc | ⟨hbc, hid'⟩
    · exact .inl (hbc.trans hab)
    · exact .inl (hbc ▸ hab)
    · exact .inl (hab ▸ hbc)
    · exact .inr ⟨hab.trans hbc, hid.trans hid'⟩

theorem eventRows_eq (db : Db) (issueId : Int) :
    eventRows db issueId = (joined db issueId).insertionSort eventOrder := rfl

/-- The order leaves no choice. -/
theorem eventRows_reordered (hevents : (db.events.map EventRow.id).Nodup)
    (hraw : (db.rawEvents.map RawEvent.id).Nodup) {db' : Db} (h : Reordered db db') (issueId : Int) :
    eventRows db' issueId = eventRows db issueId := by
  rw [eventRows_eq, eventRows_eq]
  have hids : ((joined db issueId).map fun row => row.2.id).Nodup :=
    hevents.sublist (joined_ids hraw issueId)
  have hperm := ((List.perm_insertionSort eventOrder (joined db' issueId)).trans
    (h.joined issueId)).trans (List.perm_insertionSort eventOrder (joined db issueId)).symm
  refine List.Perm.eq_of_pairwise ?_ (List.pairwise_insertionSort eventOrder _)
    (List.pairwise_insertionSort eventOrder _) hperm
  intro a b ha hb hab hba
  rw [hperm.mem_iff, List.mem_insertionSort] at ha
  rw [List.mem_insertionSort] at hb
  have hid : a.2.id = b.2.id := by
    rcases hab with hab | ⟨hab, hid⟩ <;> rcases hba with hba | ⟨hba, hid'⟩
    · exact absurd hba (not_lt.mpr hab.le)
    · exact absurd hba hab.ne
    · exact absurd hab hba.ne
    · exact le_antisymm hid hid'
  exact List.inj_on_of_nodup_map hids ha hb hid

theorem listIssueEvents_reordered (hevents : (db.events.map EventRow.id).Nodup)
    (hraw : (db.rawEvents.map RawEvent.id).Nodup) {db' : Db} (h : Reordered db db') (env : Crates)
    (userId : Int) (slug : String) (issueId : Int) (query : EventListQuery) :
    listIssueEvents env db' userId slug issueId query =
      listIssueEvents env db userId slug issueId query := by
  have hrows := eventRows_reordered hevents hraw h issueId
  have hframe := h.frame
  unfold listIssueEvents
  rw [hrows, hframe]
  rfl

/-- A walk over the events of an issue lists every event once. -/
theorem event_pages {env : Crates} {userId projectId : Int} {slug : String} {limit : Nat}
    (hevents : (db.events.map EventRow.id).Nodup) (hraw : (db.rawEvents.map RawEvent.id).Nodup)
    (hrole : Auth.requireProjectRole db userId slug .viewer = .ok projectId)
    (hissue : (Issues.issueIn db projectId issueId).isSome) (hpos : 1 ≤ limit) (hmax : limit ≤ 100)
    {page : Nat → List ApiEventJson} (hpages : EventPages env db userId slug issueId limit page) :
    ∃ rows : List (String × EventRow), rows.Perm (joined db issueId) ∧
      Browse page limit 0 (rows.map (eventJson env)) := by
  have hpage : ∀ offset, page offset =
      (((eventRows db issueId).map (eventJson env)).drop offset).take limit := by
    intro offset
    obtain ⟨db', hreordered, hanswer⟩ := hpages offset
    rw [listIssueEvents_reordered hevents hraw hreordered] at hanswer
    have hfound : (Issues.issueIn db projectId issueId).isNone = false := by
      simpa [Option.isSome_iff_ne_none] using hissue
    simpa [listIssueEvents, hrole, hfound, hpos, hmax, bind, Except.bind] using hanswer.symm
  refine ⟨eventRows db issueId, List.perm_insertionSort eventOrder (joined db issueId), ?_⟩
  exact Paging.browse_drop hpos _ 0 fun other _ => hpage other

end Events

/-- A walk over the issues lists every matching issue once, whatever order each
query gives to equal rows, if and only if no page boundary falls among matching
issues of equal last activity. A walk over the events of an issue always lists
every event once. -/
theorem pages_partition_iff {db : Db} {userId : Int} {slug : String} {query : IssueListQuery}
    {projectId : Int} {tags : List String} {limit : Nat}
    (h : Accepted db userId slug query projectId tags) (hpos : 1 ≤ limit) (hmax : limit ≤ 200)
    (hevents : (db.events.map EventRow.id).Nodup) (hraw : (db.rawEvents.map RawEvent.id).Nodup) :
    ((∀ page, IssuePages db userId slug query limit page →
      ∃ listed, Browse page limit 0 listed ∧
        listed.Perm (answers db projectId query.status (segments query.tag))) ↔
      NoTieAcross (answers db projectId query.status (segments query.tag)) limit) ∧
    ∀ env issueId eventLimit page, (Issues.issueIn db projectId issueId).isSome → 1 ≤ eventLimit →
      eventLimit ≤ 100 → EventPages env db userId slug issueId eventLimit page →
      ∃ rows : List (String × EventRow), rows.Perm (joined db issueId) ∧
        Browse page eventLimit 0 (rows.map (eventJson env)) := by
  constructor
  · simp only [issuePages_iff h hpos hmax]
    rw [noTieAcross_iff, Paging.lists_once_iff hpos (nodup_answers db projectId _ _)]
  · intro env issueId eventLimit page hissue hpos hmax hpages
    exact event_pages hevents hraw h.role hissue hpos hmax hpages

/-- Two issues that were last seen in one second. -/
def Sample.store : Db :=
  { Db.empty with
    projects := Table.empty.insert ⟨"demo", "Demo", "", 1⟩
    memberships := [⟨1, 1, .viewer⟩]
    issues := (Table.empty.insert ⟨1, "f", "first", .unresolved, 1, 0, 10⟩).insert
      ⟨1, "g", "second", .unresolved, 1, 0, 10⟩ }

def Sample.query : IssueListQuery := ⟨none, none, none, none⟩

def Sample.item (id : Int) (fingerprint title : String) : IssueJson :=
  ⟨id, title, .unresolved, 1, 0, 10, fingerprint, []⟩

/-- The second query visits the issues the other way around. -/
def Sample.page : Nat → List IssueJson
  | 0 => [Sample.item 1 "f" "first"]
  | 1 => [Sample.item 1 "f" "first"]
  | _ => []

def Sample.forward : Scan := ⟨id, id, List.Perm.refl, List.Perm.refl⟩

def Sample.backward : Scan := ⟨List.reverse, id, List.reverse_perm, List.Perm.refl⟩

theorem Sample.accepted : Accepted Sample.store 1 "demo" Sample.query 1 [] where
  status := by simp [Sample.query]
  tags := rfl
  role := by decide +kernel

theorem Sample.pages : IssuePages Sample.store 1 "demo" Sample.query 1 Sample.page := by
  rintro (_ | _ | offset)
  · exact ⟨Sample.forward, by rw [Sample.accepted.listIssues (by decide) (by decide)]; rfl⟩
  · exact ⟨Sample.backward, by rw [Sample.accepted.listIssues (by decide) (by decide)]; rfl⟩
  · refine ⟨Sample.forward, ?_⟩
    rw [Sample.accepted.listIssues (by decide) (by decide), IssueListing.fetchIssues_window,
      List.drop_of_length_le (Nat.le_add_left 2 offset)]
    rfl

/-- The first issue is listed twice, the second never. -/
theorem tie_lists_twice :
    ∃ page, IssuePages Sample.store 1 "demo" Sample.query 1 page ∧
      ∃ listed, Browse page 1 0 listed ∧ listed.map IssueJson.id = [1, 1] ∧
        (answers Sample.store 1 none []).map IssueJson.id = [1, 2] :=
  ⟨Sample.page, Sample.pages, _, .more (by decide) (.more (by decide) (.done rfl)),
    by decide, by decide +kernel⟩

/-- Both issues on one page. -/
def Sample.onePage : Nat → List IssueJson
  | 0 => [Sample.item 1 "f" "first", Sample.item 2 "g" "second"]
  | 1 => [Sample.item 2 "g" "second"]
  | _ => []

theorem Sample.onePages : IssuePages Sample.store 1 "demo" Sample.query 2 Sample.onePage := by
  rintro (_ | _ | offset) <;> refine ⟨Sample.forward, ?_⟩ <;>
    rw [Sample.accepted.listIssues (by decide) (by decide)]
  · rfl
  · rfl
  · rw [IssueListing.fetchIssues_window, List.drop_of_length_le (Nat.le_add_left 2 offset)]
    rfl

theorem pages_partition_iff_onePage :
    ∃ listed, Browse Sample.onePage 2 0 listed ∧ listed.Perm (answers Sample.store 1 none []) := by
  refine (pages_partition_iff Sample.accepted (by decide) (by decide) (by decide) (by decide)).1.mpr
    (fun k item _ ⟨hnewer, hupTo⟩ => ?_) Sample.onePage Sample.onePages
  have hlen := hupTo.trans_le List.countP_le_length
  have htwo : (answers Sample.store 1 none []).length = 2 := by decide +kernel
  change k * 2 < (answers Sample.store 1 none []).length at hlen
  omega

end Zbierak.Pagination
