import Zbierak.TagSets

/-!
# Listing the issues of a project

The listing takes two queries: one for a page of issues, one for the tags of
that page, which are put back by a map. It answers what one query with the tags
of each issue would, and the count of distinct tags in the first query says that
the issue carries every tag of the filter.
-/
namespace Zbierak.IssueListing

open IssueApi (IssueJson issueJson filterTags carriesTags)
open IssueTags (tagsOf mem_tagsOf)
open TagSets (entries)

/-- The orders in which the store visits the rows of the two queries; they
decide between rows that are equal on the keys of an ordering. -/
structure Scan where
  issues : List (Int × Issue) → List (Int × Issue)
  tags : List IssueTag → List IssueTag
  issuesPerm : ∀ rows, (issues rows).Perm rows
  tagsPerm : ∀ rows, (tags rows).Perm rows

/-- A row of the first query, without tags yet. -/
def issueRow (row : Int × Issue) : IssueJson :=
  let (id, i) := row
  ⟨id, i.title, i.status, i.eventCount, i.firstSeenAt, i.lastSeenAt, i.fingerprint, []⟩

/-- The first query before its limit. -/
def matching (scan : Scan) (db : Db) (projectId : Int) (tags : List String)
    (status : Option String) : List (Int × Issue) :=
  ((scan.issues db.issues.rows).filter fun row =>
    row.2.projectId = projectId ∧ (∀ raw ∈ status, row.2.status.asStr = raw) ∧
      (tags = [] ∨ carriesTags db row.1 tags = true)).insertionSort fun a b =>
    b.2.lastSeenAt ≤ a.2.lastSeenAt

/-- The second query. -/
def tagRows (scan : Scan) (db : Db) (ids : List Int) : List IssueTag :=
  ((scan.tags db.issueTags).filter fun t => t.issueId ∈ ids).insertionSort fun a b => a.tag ≤ b.tag

/-- The map from issues to their tags, extended row by row. -/
def byIssue (map : Int → Option (List String)) : List IssueTag → Int → Option (List String)
  | [] => map
  | t :: rest =>
    byIssue (Function.update map t.issueId (some ((map t.issueId).getD [] ++ [t.tag]))) rest

/-- Each issue takes its tags out of the map. -/
def attachTags (map : Int → Option (List String)) : List IssueJson → List IssueJson
  | [] => []
  | item :: rest =>
    match map item.id with
    | some tags => { item with tags } :: attachTags (Function.update map item.id none) rest
    | none => item :: attachTags map rest

def fetchIssues (scan : Scan) (db : Db) (projectId : Int) (tags : List String)
    (status : Option String) (limit offset : Nat) : List IssueJson :=
  let issues := (((matching scan db projectId tags status).drop offset).take limit).map issueRow
  if issues.isEmpty then issues
  else attachTags (byIssue (fun _ => none) (tagRows scan db (issues.map IssueJson.id))) issues

theorem byIssue_apply (map : Int → Option (List String)) (rows : List IssueTag) (id : Int) :
    (byIssue map rows id).getD [] = (map id).getD [] ++ tagsOf rows id := by
  induction rows generalizing map with
  | nil => simp [byIssue, tagsOf]
  | cons t rest ih =>
    rw [byIssue, ih]
    by_cases h : t.issueId = id
    · subst h
      simp [tagsOf]
    · simp [tagsOf, h, Function.update_of_ne (Ne.symm h)]

/-- Issues with different ids do not take each other's tags. -/
theorem attachTags_eq {items : List IssueJson} (hids : (items.map IssueJson.id).Nodup)
    (hnone : ∀ item ∈ items, item.tags = []) (map : Int → Option (List String)) :
    attachTags map items = items.map fun item => { item with tags := (map item.id).getD [] } := by
  induction items generalizing map with
  | nil => rfl
  | cons item rest ih =>
    rw [List.map_cons, List.nodup_cons] at hids
    have hrest := ih hids.2 fun x hx => hnone x (List.mem_cons_of_mem item hx)
    unfold attachTags
    split
    · next tags htags =>
      rw [hrest, List.map_cons, htags]
      refine congrArg _ (List.map_congr_left fun x hx => ?_)
      have hne : x.id ≠ item.id := fun heq => hids.1 (heq ▸ List.mem_map_of_mem hx)
      rw [Function.update_of_ne hne]
    · next htags =>
      rw [hrest, List.map_cons, htags, Option.getD_none, ← hnone item List.mem_cons_self]

/-- The tags of one issue among the rows of the second query. -/
theorem tagsOf_tagRows (scan : Scan) (db : Db) {ids : List Int} {id : Int} (h : id ∈ ids) :
    tagsOf (tagRows scan db ids) id = Issues.tagsForIssue db id := by
  refine List.Perm.eq_of_pairwise' (r := (· ≤ ·)) ?_ (List.pairwise_insertionSort (· ≤ ·) _) ?_
  · have hsorted := List.pairwise_insertionSort (fun a b : IssueTag => a.tag ≤ b.tag)
      ((scan.tags db.issueTags).filter fun t => t.issueId ∈ ids)
    exact List.pairwise_map.mpr (hsorted.filter _)
  · refine List.Perm.trans ?_ (List.perm_insertionSort (· ≤ ·) _).symm
    refine List.Perm.map _ ?_
    have hrows : (tagRows scan db ids).Perm (db.issueTags.filter fun t => t.issueId ∈ ids) :=
      (List.perm_insertionSort _ _).trans ((scan.tagsPerm db.issueTags).filter _)
    refine (hrows.filter _).trans (List.Perm.of_eq ?_)
    rw [List.filter_filter]
    refine List.filter_congr fun t _ => ?_
    by_cases ht : t.issueId = id
    · simp [ht, h]
    · simp [ht]

theorem keys_matching (scan : Scan) (db : Db) (projectId : Int) (tags : List String)
    (status : Option String) : ((matching scan db projectId tags status).map Prod.fst).Nodup := by
  have hsub := (List.filter_sublist (l := scan.issues db.issues.rows) (p := fun row =>
    row.2.projectId = projectId ∧ (∀ raw ∈ status, row.2.status.asStr = raw) ∧
      (tags = [] ∨ carriesTags db row.1 tags = true))).map Prod.fst
  have hall : ((scan.issues db.issues.rows).map Prod.fst).Nodup :=
    ((scan.issuesPerm _).map Prod.fst).nodup_iff.mpr db.issues.keys_nodup
  exact ((List.perm_insertionSort _ _).map Prod.fst).nodup_iff.mpr (hall.sublist hsub)

/-- The two queries answer what one does that reads the tags of each issue. -/
theorem fetchIssues_eq (scan : Scan) (db : Db) (projectId : Int) (tags : List String)
    (status : Option String) (limit offset : Nat) :
    fetchIssues scan db projectId tags status limit offset =
      IssueApi.fetchIssues scan.issues db projectId tags status limit offset := by
  have hkeys := keys_matching scan db projectId tags status
  simp only [fetchIssues, IssueApi.fetchIssues]
  change _ = List.map (issueJson db)
    (((matching scan db projectId tags status).drop offset).take limit)
  generalize hpage : ((matching scan db projectId tags status).drop offset).take limit = page
  have hsub : page.Sublist (matching scan db projectId tags status) :=
    hpage ▸ (List.take_sublist _ _).trans (List.drop_sublist _ _)
  have hids : ((page.map issueRow).map IssueJson.id).Nodup := by
    rw [List.map_map]
    exact hkeys.sublist (hsub.map Prod.fst)
  split
  · next hempty =>
    have hnil : page = [] := by simpa using hempty
    rw [hnil, List.map_nil, List.map_nil]
  · have hblank : ∀ item ∈ page.map issueRow, item.tags = [] := by
      intro item hitem
      obtain ⟨row, -, rfl⟩ := List.mem_map.mp hitem
      rfl
    rw [attachTags_eq hids hblank, List.map_map]
    refine List.map_congr_left fun row hrow => ?_
    have hmem : row.1 ∈ (page.map issueRow).map IssueJson.id :=
      List.mem_map_of_mem (List.mem_map_of_mem hrow)
    simp only [Function.comp_apply, byIssue_apply]
    rw [Option.getD_none, List.nil_append]
    change ({ issueRow row with tags := tagsOf (tagRows scan db _) row.1 } : IssueJson) = _
    rw [tagsOf_tagRows scan db hmem]
    rfl

/-- Counting the distinct tags that match decides whether all do, because the
tags of the filter are distinct. -/
theorem carriesTags_iff {db : Db} {issueId : Int} {tags : List String} (hnodup : tags.Nodup) :
    carriesTags db issueId tags = true ↔ ∀ tag ∈ tags, tag ∈ tagsOf db.issueTags issueId := by
  have hmem : ∀ tag, tag ∈ ((db.issueTags.filter fun t => t.issueId = issueId ∧ t.tag ∈ tags).map
      IssueTag.tag).dedup ↔ tag ∈ tags ∧ tag ∈ tagsOf db.issueTags issueId := by
    intro tag
    rw [mem_tagsOf]
    simp only [List.mem_dedup, List.mem_map, List.mem_filter, decide_eq_true_eq]
    constructor
    · rintro ⟨⟨_, _⟩, ⟨hrow, rfl, htag⟩, rfl⟩
      exact ⟨htag, hrow⟩
    · exact fun ⟨htag, hrow⟩ => ⟨_, ⟨hrow, rfl, htag⟩, rfl⟩
  have hfound := List.nodup_dedup
    ((db.issueTags.filter fun t => t.issueId = issueId ∧ t.tag ∈ tags).map IssueTag.tag)
  simp only [carriesTags, decide_eq_true_eq]
  generalize ((db.issueTags.filter fun t => t.issueId = issueId ∧ t.tag ∈ tags).map
    IssueTag.tag).dedup = found at hmem hfound
  constructor
  · intro hlen tag htag
    have hperm : found.Perm tags :=
      (List.subperm_of_subset hfound fun tag h => ((hmem tag).mp h).1).perm_of_length_le hlen.ge
    exact ((hmem tag).mp (hperm.mem_iff.mpr htag)).2
  · intro hall
    refine ((List.perm_ext_iff_of_nodup hfound hnodup).mpr fun tag => ?_).length_eq
    exact (hmem tag).trans (and_iff_left_of_imp (hall tag))

/-- The tags a filter asks for: the segments that are not blank, trimmed. -/
def segments : Option String → List String
  | none => []
  | some raw => entries (Text.split ',' raw)

/-- The issue is of the project, of the status if one is given, and carries
every tag that is asked for. -/
def Matches (db : Db) (projectId : Int) (status : Option String) (required : List String)
    (row : Int × Issue) : Prop :=
  row.2.projectId = projectId ∧ (∀ raw ∈ status, row.2.status.asStr = raw) ∧
    ∀ tag ∈ required, tag ∈ tagsOf db.issueTags row.1

instance (db : Db) (projectId : Int) (status : Option String) (required : List String)
    (row : Int × Issue) : Decidable (Matches db projectId status required row) :=
  inferInstanceAs (Decidable (_ ∧ _ ∧ _))

/-- The matching issues in the order of the table, each with its tags. -/
def answers (db : Db) (projectId : Int) (status : Option String) (required : List String) :
    List IssueJson :=
  (db.issues.rows.filter (Matches db projectId status required)).map (issueJson db)

theorem segments_of_filterTags {tag : Option String} {tags : List String}
    (h : filterTags tag = .ok tags) :
    tags.Nodup ∧ ∀ t, t ∈ tags ↔ t ∈ segments tag := by
  cases tag with
  | none =>
    cases h
    exact ⟨List.nodup_nil, fun _ => Iff.rfl⟩
  | some raw =>
    have htags : Tags.normalizeTags (Text.split ',' raw) = .ok tags := IssueTags.mapError_ok h
    exact ⟨(Tags.normalizeTags_ok htags).1, fun t => TagSets.mem_normalizeTags htags⟩

/-- The condition of the first query. -/
theorem matches_iff {db : Db} {projectId : Int} {status tag : Option String} {tags : List String}
    (h : filterTags tag = .ok tags) (row : Int × Issue) :
    (row.2.projectId = projectId ∧ (∀ raw ∈ status, row.2.status.asStr = raw) ∧
      (tags = [] ∨ carriesTags db row.1 tags = true)) ↔
        Matches db projectId status (segments tag) row := by
  obtain ⟨hnodup, hmem⟩ := segments_of_filterTags h
  refine and_congr_right fun _ => and_congr_right fun _ => ?_
  simp only [← hmem, carriesTags_iff hnodup]
  refine or_iff_right_of_imp ?_
  rintro rfl
  simp

theorem matching_perm (scan : Scan) (db : Db) (projectId : Int) (status : Option String)
    {tag : Option String} {tags : List String} (h : filterTags tag = .ok tags) :
    (matching scan db projectId tags status).Perm
      (db.issues.rows.filter (Matches db projectId status (segments tag))) := by
  refine (List.perm_insertionSort _ _).trans (((scan.issuesPerm _).filter _).trans ?_)
  exact List.Perm.of_eq (List.filter_congr fun row _ => decide_eq_decide.mpr (matches_iff h row))

/-- A page is a window of the matching issues with their tags. -/
theorem fetchIssues_window (scan : Scan) (db : Db) (projectId : Int) (tags : List String)
    (status : Option String) (limit offset : Nat) :
    fetchIssues scan db projectId tags status limit offset =
      (((matching scan db projectId tags status).map (issueJson db)).drop offset).take limit := by
  rw [fetchIssues_eq, ← List.map_drop, ← List.map_take]
  rfl

theorem sorted_matching (scan : Scan) (db : Db) (projectId : Int) (tags : List String)
    (status : Option String) :
    ((matching scan db projectId tags status).map (issueJson db)).Pairwise
      fun a b => b.lastSeenAt ≤ a.lastSeenAt :=
  List.pairwise_map.mpr (List.pairwise_insertionSort
    (fun a b : Int × Issue => b.2.lastSeenAt ≤ a.2.lastSeenAt) _)

/-- Filtering meets its specification. For every filter that is accepted there is
one list of the matching issues, newest activity first, each with all its tags in
the order of their bytes, and the pages are windows of that list. -/
theorem listing_meets_spec (scan : Scan) (db : Db) (projectId : Int) (status : Option String)
    {tag : Option String} {tags : List String} (h : filterTags tag = .ok tags) :
    ∃ all : List IssueJson,
      all.Perm (answers db projectId status (segments tag)) ∧
      all.Pairwise (fun a b => b.lastSeenAt ≤ a.lastSeenAt) ∧
      (∀ item ∈ all, item.tags.Perm (tagsOf db.issueTags item.id) ∧
        item.tags.Pairwise fun a b => Text.toUtf8 a ≤ Text.toUtf8 b) ∧
      (∀ limit offset, fetchIssues scan db projectId tags status limit offset =
        (all.drop offset).take limit) ∧
      ∀ limit, 1 ≤ limit → ∀ item,
        (∃ offset, item ∈ fetchIssues scan db projectId tags status limit offset) ↔ item ∈ all := by
  refine ⟨_, (matching_perm scan db projectId status h).map _,
    sorted_matching scan db projectId tags status, ?_,
    fetchIssues_window scan db projectId tags status, ?_⟩
  · intro item hitem
    obtain ⟨row, -, rfl⟩ := List.mem_map.mp hitem
    refine ⟨List.perm_insertionSort (· ≤ ·) _, ?_⟩
    refine (List.pairwise_insertionSort (· ≤ ·) _).imp fun hle => ?_
    exact List.not_lt.mp fun hlt => absurd (Utf8.toUtf8_lt_iff.mp hlt) (not_lt.mpr hle)
  · intro limit hlimit item
    simp only [fetchIssues_window]
    constructor
    · rintro ⟨offset, hitem⟩
      exact List.mem_of_mem_drop (List.mem_of_mem_take hitem)
    · intro hitem
      obtain ⟨offset, hlt, rfl⟩ := List.mem_iff_getElem.mp hitem
      obtain ⟨n, rfl⟩ : ∃ n, limit = n + 1 := ⟨limit - 1, by omega⟩
      refine ⟨offset, ?_⟩
      rw [List.drop_eq_getElem_cons hlt, List.take_succ_cons]
      exact List.mem_cons_self

/-- Two tagged issues, one of them older, and a filter with blanks and repeats. -/
def Sample.store : Db :=
  { Db.empty with
    issues := (Table.empty.insert ⟨1, "f", "old", .unresolved, 1, 0, 10⟩).insert
      ⟨1, "g", "new", .resolved, 1, 0, 20⟩
    issueTags := [⟨1, "env:dev"⟩, ⟨1, "api"⟩, ⟨2, "shard"⟩, ⟨2, "api"⟩] }

def Sample.scan : Scan := ⟨id, id, fun _ => .rfl, fun _ => .rfl⟩

theorem listing_meets_spec_sample : ∃ all : List IssueJson,
    all.Perm (answers Sample.store 1 none ["api", "api"]) ∧ all.map IssueJson.id = [2, 1] ∧
      fetchIssues Sample.scan Sample.store 1 ["api"] none 1 1 = (all.drop 1).take 1 := by
  have hfilter : filterTags (some " api ,,api") = .ok ["api"] := by decide +kernel
  have hsegments : segments (some " api ,,api") = ["api", "api"] := by decide +kernel
  obtain ⟨all, hperm, -, -, hpages, -⟩ := listing_meets_spec Sample.scan Sample.store 1 none hfilter
  have hrun : (fetchIssues Sample.scan Sample.store 1 ["api"] none 2 0).map IssueJson.id = [2, 1] := by
    decide +kernel
  rw [hsegments] at hperm
  have hlength : all.length = 2 := hperm.length_eq
  rw [hpages, List.drop_zero, List.take_of_length_le hlength.le] at hrun
  exact ⟨all, hperm, hrun, hpages 1 1⟩

end Zbierak.IssueListing
