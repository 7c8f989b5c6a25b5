import Zbierak.IssueTags
import Zbierak.Lib.Utf8

/-!
# Replacing the tags of an issue

The raw list of a request stands for the set of its entries that are not blank.
Two lists with the same set are accepted or refused together, and replacing the
tags depends on nothing else; the timeline gets an entry when the set changes.
-/
namespace Zbierak.TagSets

open Issues (issueIn tagsForIssue replaceIssueTags)
open IssueTags (tagsOf mem_tagsOf)

/-- The entries of a raw list, trimmed, without the blank ones. -/
def entries (raw : List String) : List String := (raw.map Text.trim).filter (· ≠ "")

def sorted (tags : List String) : List String := tags.insertionSort (· ≤ ·)

theorem validateTag_eq {raw : String} (h : Tags.Valid (Text.trim raw)) :
    Tags.validateTag raw = .ok (Text.trim raw) := by
  have hplain : ¬ ((Text.trim raw).toList.any fun c => Text.isWhitespace c || c == ',') = true := by
    simpa using h.plain
  simp only [Tags.validateTag, h.nonempty, if_false, if_neg (Nat.not_lt.mpr h.short), if_neg hplain]

theorem entries_blank {value : String} (h : Text.trim value = "") (rest : List String) :
    entries (value :: rest) = entries rest := by
  simp [entries, h]

theorem entries_cons {value : String} (h : Text.trim value ≠ "") (rest : List String) :
    entries (value :: rest) = Text.trim value :: entries rest := by
  simp [entries, h]

/-- Collecting succeeds when every entry is valid, and adds the ones that are new. -/
theorem collectTags_iff {seen raw tags : List String} :
    Tags.collectTags seen raw = .ok tags ↔
      (∀ tag ∈ entries raw, Tags.Valid tag) ∧ tags = seen ++ Merge.fresh seen (entries raw) := by
  induction raw generalizing seen with
  | nil =>
    have hnone : entries [] = [] := rfl
    simp [Tags.collectTags, hnone, eq_comm]
  | cons value rest ih =>
    by_cases hblank : Text.trim value = ""
    · simp only [Tags.collectTags, hblank, if_true, entries_blank hblank, ih]
    · rw [entries_cons hblank, List.forall_mem_cons]
      by_cases hvalid : Tags.Valid (Text.trim value)
      · simp only [Tags.collectTags, hblank, if_false, validateTag_eq hvalid, ih, hvalid, true_and]
        by_cases hmem : Text.trim value ∈ seen
        · simp [hmem]
        · simp [hmem]
      · refine iff_of_false ?_ fun h => hvalid h.1.1
        simp only [Tags.collectTags, hblank, if_false]
        cases hcheck : Tags.validateTag value with
        | error e =>
          intro h
          cases h
        | ok tag =>
          obtain ⟨rfl, hok⟩ := Tags.validateTag_ok hcheck
          exact absurd hok hvalid

theorem normalizeTags_iff {raw tags : List String} :
    Tags.normalizeTags raw = .ok tags ↔ (∀ tag ∈ entries raw, Tags.Valid tag) ∧
      tags = Merge.fresh [] (entries raw) ∧ tags.length ≤ Tags.maxTags := by
  unfold Tags.normalizeTags
  split
  · next e hcollect =>
    refine iff_of_false nofun fun ⟨hvalid, htags, _⟩ => ?_
    rw [collectTags_iff.mpr ⟨hvalid, rfl⟩] at hcollect
    cases hcollect
  · next collected hcollect =>
    obtain ⟨hvalid, rfl⟩ := collectTags_iff.mp hcollect
    rw [List.nil_append]
    split
    · next hlen =>
      refine iff_of_false nofun fun ⟨_, htags, hle⟩ => ?_
      rw [htags] at hle
      omega
    · next hlen =>
      constructor
      · rintro ⟨⟩
        exact ⟨hvalid, rfl, Nat.not_lt.mp hlen⟩
      · rintro ⟨-, rfl, -⟩
        rfl

theorem mem_normalizeTags {raw tags : List String} (h : Tags.normalizeTags raw = .ok tags)
    {tag : String} : tag ∈ tags ↔ tag ∈ entries raw := by
  obtain ⟨-, rfl, -⟩ := normalizeTags_iff.mp h
  simp [Merge.mem_fresh]

/-- Both lists stand for the same set of tags. -/
def SameSet (tags tags' : List String) : Prop := ∀ tag, tag ∈ tags ↔ tag ∈ tags'

/-- Acceptance depends on the set only. -/
theorem normalizeTags_congr {raw raw' tags : List String}
    (hsame : SameSet (entries raw) (entries raw'))
    (h : Tags.normalizeTags raw = .ok tags) :
    ∃ tags', Tags.normalizeTags raw' = .ok tags' ∧ tags'.Perm tags := by
  obtain ⟨hvalid, rfl, hlen⟩ := normalizeTags_iff.mp h
  have hnodup : ∀ raw : List String, (Merge.fresh [] (entries raw)).Nodup := fun raw => by
    simpa using Merge.nodup_append_fresh List.nodup_nil (entries raw)
  have hperm : (Merge.fresh [] (entries raw')).Perm (Merge.fresh [] (entries raw)) := by
    rw [List.perm_ext_iff_of_nodup (hnodup raw') (hnodup raw)]
    intro tag
    simp [Merge.mem_fresh, hsame tag]
  refine ⟨_, normalizeTags_iff.mpr ⟨fun tag htag => hvalid tag ((hsame tag).mpr htag), rfl, ?_⟩, hperm⟩
  rw [hperm.length_eq]
  exact hlen

/-- Sorting decides equality of sets. -/
theorem sorted_eq_iff {tags tags' : List String} (h : tags.Nodup) (h' : tags'.Nodup) :
    sorted tags = sorted tags' ↔ SameSet tags tags' := by
  rw [SameSet, ← List.perm_ext_iff_of_nodup h h']
  have hperm : ∀ tags : List String, (sorted tags).Perm tags := List.perm_insertionSort (· ≤ ·)
  constructor
  · intro heq
    exact (hperm tags).symm.trans (heq ▸ hperm tags')
  · intro hsame
    exact List.Perm.eq_of_pairwise' (List.pairwise_insertionSort (· ≤ ·) _)
      (List.pairwise_insertionSort (· ≤ ·) _) ((hperm tags).trans (hsame.trans (hperm tags').symm))

/-- Sorted means by bytes, and each tag once. -/
theorem sorted_bytes {tags : List String} (h : tags.Nodup) :
    (sorted tags).Pairwise fun a b => Text.toUtf8 a < Text.toUtf8 b := by
  have hnodup : (sorted tags).Nodup := (List.perm_insertionSort (· ≤ ·) tags).nodup_iff.mpr h
  have hle : (sorted tags).Pairwise (· ≤ ·) := List.pairwise_insertionSort (· ≤ ·) tags
  refine (hle.and hnodup).imp fun h => ?_
  exact Utf8.toUtf8_lt_iff.mpr (lt_of_le_of_ne h.1 h.2)

theorem nodup_tagsOf {rows : List IssueTag} (h : rows.Nodup) (issueId : Int) :
    (tagsOf rows issueId).Nodup := by
  refine (h.filter _).map_on ?_
  rintro ⟨i, tag⟩ ht ⟨i', tag'⟩ ht' htag
  simp only [List.mem_filter, decide_eq_true_eq] at ht ht'
  obtain ⟨rfl, rfl⟩ : i = i' ∧ tag = tag' := ⟨ht.2.trans ht'.2.symm, htag⟩
  rfl

/-- What both handlers run once the caller may edit the issue: normalize the
list, replace the tags, read them back. -/
def replaceTags (refuse : String → AppError) (now : Int) (db : Db) (projectId issueId userId : Int)
    (raw : List String) : Except AppError (List String) × Db :=
  match Tags.normalizeTags raw with
  | .error error => (.error (refuse error), db)
  | .ok tags =>
    match commit (replaceIssueTags projectId issueId userId tags now) db with
    | (.ok (), db') => (.ok (tagsForIssue db' issueId), db')
    | (.error e, db') => (.error e, db')

section Handlers

variable {now : Int} {db : Db} {slug : String} {projectId : Int}

theorem updateIssueTags_eq {userId : Int}
    (hrole : Auth.requireProjectRole db userId slug .developer = .ok projectId) (issueId : Int)
    (raw : List String) :
    IssueApi.updateIssueTags now db userId slug issueId raw =
      Prod.map (·.map IssueApi.Response.tags) id
        (replaceTags (.unprocessable (some "tags")) now db projectId issueId userId raw) := by
  simp only [IssueApi.updateIssueTags, IssueApi.checked, hrole, replaceTags, IssueApi.transact]
  cases Tags.normalizeTags raw with
  | error e => rfl
  | ok tags =>
    dsimp only [Except.mapError]
    rcases commit_cases (replaceIssueTags projectId issueId userId tags now) db with
      ⟨db', _, -, hc⟩ | ⟨e, -, hc⟩ <;> rw [hc] <;> rfl

theorem updateIssueTagsForm_eq {session : Auth.Session} {form : IssueApi.TagsForm}
    (hcsrf : Auth.checkCsrf session form.csrfToken = .ok ())
    (hrole : Auth.requireProjectRole db session.userId slug .developer = .ok projectId)
    (issueId : Int) :
    IssueApi.updateIssueTagsForm now db session slug issueId form =
      Prod.map (·.map fun _ => IssueApi.issuePage slug issueId) id
        (replaceTags .badRequest now db projectId issueId session.userId
          (Text.split ',' form.tags)) := by
  simp only [IssueApi.updateIssueTagsForm, IssueApi.checked, hcsrf, hrole, replaceTags,
    IssueApi.transact, Tags.normalizeCommaSeparated]
  cases Tags.normalizeTags (Text.split ',' form.tags) with
  | error e => rfl
  | ok tags =>
    dsimp only [Except.mapError]
    rcases commit_cases (replaceIssueTags projectId issueId session.userId tags now) db with
      ⟨db', _, -, hc⟩ | ⟨e, -, hc⟩ <;> rw [hc] <;> rfl

end Handlers

/-- What an accepted set of tags does to the store, and the tags it answers. -/
structure Replaced (now : Int) (db db' : Db) (issueId userId : Int) (set : List String)
    (answer : List String) : Prop where
  stored : SameSet (tagsOf db'.issueTags issueId) set
  once : (tagsOf db'.issueTags issueId).Nodup
  answered : answer = sorted (tagsOf db'.issueTags issueId)
  bytes : answer.Pairwise fun a b => Text.toUtf8 a < Text.toUtf8 b
  others : (db'.issueTags.filter fun t => t.issueId ≠ issueId) =
    db.issueTags.filter fun t => t.issueId ≠ issueId
  frame : db' = { db with issueTags := db'.issueTags, activity := db'.activity }
  equal : SameSet (tagsOf db.issueTags issueId) set → db' = db
  changed : ¬ SameSet (tagsOf db.issueTags issueId) set →
    db'.activity = db.activity.insert ⟨issueId, some userId, .tags, .object
      [("from", .array ((sorted (tagsOf db.issueTags issueId)).map .string)),
        ("to", .array (answer.map .string))], now⟩

/-- The stores differ at most in the order of the rows of one issue. -/
structure SameUpToOrder (issueId : Int) (db db' : Db) : Prop where
  tags : (tagsOf db.issueTags issueId).Perm (tagsOf db'.issueTags issueId)
  others : (db.issueTags.filter fun t => t.issueId ≠ issueId) =
    db'.issueTags.filter fun t => t.issueId ≠ issueId
  frame : db' = { db with issueTags := db'.issueTags }

section Replace

variable {now : Int} {db : Db} {projectId issueId : Int} (userId : Int)

/-- The store with the rows of the issue rewritten and the change recorded. -/
def rewritten (now : Int) (db : Db) (issueId userId : Int) (tags : List String) : Db :=
  { db with
    issueTags := Issues.insertTags issueId tags (db.issueTags.filter fun t => t.issueId ≠ issueId)
    activity := db.activity.insert ⟨issueId, some userId, .tags, .object
      [("from", .array ((sorted (tagsOf db.issueTags issueId)).map .string)),
        ("to", .array ((sorted tags).map .string))], now⟩ }

theorem replaceIssueTags_equal {issue : Issue} (hissue : issueIn db projectId issueId = some issue)
    {tags : List String} (hnodup : tags.Nodup) (hkey : (tagsOf db.issueTags issueId).Nodup)
    (hsame : SameSet (tagsOf db.issueTags issueId) tags) :
    replaceIssueTags projectId issueId userId tags now db = .ok (db, ()) := by
  have heq : tags.insertionSort (· ≤ ·) = tagsForIssue db issueId :=
    ((sorted_eq_iff hkey hnodup).mpr hsame).symm
  simp only [replaceIssueTags, hissue, heq, if_true]

theorem replaceIssueTags_changed {issue : Issue} (hissue : issueIn db projectId issueId = some issue)
    {tags : List String} (hnodup : tags.Nodup) (hkey : (tagsOf db.issueTags issueId).Nodup)
    (hdiff : ¬ SameSet (tagsOf db.issueTags issueId) tags) :
    replaceIssueTags projectId issueId userId tags now db =
      .ok (rewritten now db issueId userId tags, ()) := by
  have hne : tags.insertionSort (· ≤ ·) ≠ tagsForIssue db issueId := fun heq =>
    hdiff ((sorted_eq_iff hkey hnodup).mp heq.symm)
  simp only [replaceIssueTags, hissue, if_neg hne]
  rfl

theorem tagsOf_rewritten {tags : List String} (hnodup : tags.Nodup) :
    tagsOf (rewritten now db issueId userId tags).issueTags issueId = tags := by
  simp only [rewritten, IssueTags.tagsOf_replaced issueId hnodup, if_true]

theorem others_rewritten (tags : List String) :
    ((rewritten now db issueId userId tags).issueTags.filter fun t => t.issueId ≠ issueId) =
      db.issueTags.filter fun t => t.issueId ≠ issueId := by
  rw [rewritten, Issues.filter_insertTags issueId tags _ _ fun tag => by simp, List.filter_filter]
  simp

theorem replaceTags_equal (refuse : String → AppError) {issue : Issue}
    (hissue : issueIn db projectId issueId = some issue) (hkey : (tagsOf db.issueTags issueId).Nodup)
    {raw tags : List String} (htags : Tags.normalizeTags raw = .ok tags)
    (hsame : SameSet (tagsOf db.issueTags issueId) (entries raw)) :
    replaceTags refuse now db projectId issueId userId raw =
      (.ok (sorted (tagsOf db.issueTags issueId)), db) := by
  have hnormal : SameSet (tagsOf db.issueTags issueId) tags := fun tag =>
    (hsame tag).trans (mem_normalizeTags htags).symm
  have htx : replaceIssueTags projectId issueId userId tags now db = .ok (db, ()) :=
    replaceIssueTags_equal userId hissue (Tags.normalizeTags_ok htags).1 hkey hnormal
  simp only [replaceTags, htags, commit_ok htx]
  rfl

theorem replaceTags_changed (refuse : String → AppError) {issue : Issue}
    (hissue : issueIn db projectId issueId = some issue) (hkey : (tagsOf db.issueTags issueId).Nodup)
    {raw tags : List String} (htags : Tags.normalizeTags raw = .ok tags)
    (hdiff : ¬ SameSet (tagsOf db.issueTags issueId) (entries raw)) :
    replaceTags refuse now db projectId issueId userId raw =
      (.ok (sorted tags), rewritten now db issueId userId tags) := by
  have hnodup : tags.Nodup := (Tags.normalizeTags_ok htags).1
  have hnormal : ¬ SameSet (tagsOf db.issueTags issueId) tags := fun h =>
    hdiff fun tag => (h tag).trans (mem_normalizeTags htags)
  have htx : replaceIssueTags projectId issueId userId tags now db =
      .ok (rewritten now db issueId userId tags, ()) :=
    replaceIssueTags_changed userId hissue hnodup hkey hnormal
  simp only [replaceTags, htags, commit_ok htx]
  change (Except.ok (sorted (tagsOf _ issueId)), _) = _
  rw [tagsOf_rewritten userId hnodup]

theorem replaced_rewritten {raw tags : List String} (htags : Tags.normalizeTags raw = .ok tags)
    (hdiff : ¬ SameSet (tagsOf db.issueTags issueId) (entries raw)) :
    Replaced now db (rewritten now db issueId userId tags) issueId userId (entries raw)
      (sorted tags) := by
  have hnodup : tags.Nodup := (Tags.normalizeTags_ok htags).1
  have hstored : tagsOf (rewritten now db issueId userId tags).issueTags issueId = tags :=
    tagsOf_rewritten userId hnodup
  exact {
    stored := fun tag => by rw [hstored, mem_normalizeTags htags]
    once := by rwa [hstored]
    answered := by rw [hstored]
    bytes := sorted_bytes hnodup
    others := others_rewritten userId tags
    frame := rfl
    equal := fun hsame => absurd hsame hdiff
    changed := fun _ => rfl }

theorem sameUpToOrder_rewritten {tags tags' : List String} (hnodup : tags.Nodup)
    (hperm : tags'.Perm tags) : SameUpToOrder issueId (rewritten now db issueId userId tags)
      (rewritten now db issueId userId tags') := by
  have hnodup' : tags'.Nodup := hperm.nodup_iff.mpr hnodup
  have hsorted : sorted tags' = sorted tags :=
    (sorted_eq_iff hnodup' hnodup).mpr fun tag => hperm.mem_iff
  refine ⟨?_, ?_, ?_⟩
  · rw [tagsOf_rewritten userId hnodup, tagsOf_rewritten userId hnodup']
    exact hperm.symm
  · rw [others_rewritten, others_rewritten]
  · simp only [rewritten, hsorted]

end Replace

/-- Replacing the tags of an issue is an operation on sets: an accepted list
leaves exactly its trimmed entries, answers them in the order of their bytes and
changes nothing else but the timeline, which gets one entry if the set is a new
one. Lists with the same entries have the same effect, and the second time there
is none. A refused list and an issue that is not in the project change nothing. -/
theorem replacement_is_set_operation (refuse : String → AppError) (now : Int) {db : Db}
    (hkey : db.issueTags.Nodup) (projectId issueId userId : Int) :
    (∀ raw tags issue, Tags.normalizeTags raw = .ok tags →
      issueIn db projectId issueId = some issue →
      ∃ answer db', replaceTags refuse now db projectId issueId userId raw = (.ok answer, db') ∧
        Replaced now db db' issueId userId (entries raw) answer ∧
        ∀ raw', SameSet (entries raw) (entries raw') →
          (∃ db'', replaceTags refuse now db projectId issueId userId raw' = (.ok answer, db'') ∧
            SameUpToOrder issueId db' db'') ∧
          ∀ later, replaceTags refuse later db' projectId issueId userId raw' = (.ok answer, db')) ∧
    (∀ raw error, Tags.normalizeTags raw = .error error →
      replaceTags refuse now db projectId issueId userId raw = (.error (refuse error), db)) ∧
    (issueIn db projectId issueId = none → ∀ raw,
      ∃ e, replaceTags refuse now db projectId issueId userId raw = (.error e, db)) := by
  have hstored := nodup_tagsOf hkey issueId
  refine ⟨fun raw tags issue htags hissue => ?_, fun raw error h => ?_, fun hnone raw => ?_⟩
  · by_cases hsame : SameSet (tagsOf db.issueTags issueId) (entries raw)
    · refine ⟨_, db, replaceTags_equal userId refuse hissue hstored htags hsame,
        ⟨hsame, hstored, rfl, sorted_bytes hstored, rfl, rfl, fun _ => rfl, fun h => absurd hsame h⟩,
        fun raw' hraw => ?_⟩
      obtain ⟨tags', htags', -⟩ := normalizeTags_congr hraw htags
      have hsame' : SameSet (tagsOf db.issueTags issueId) (entries raw') := fun tag =>
        (hsame tag).trans (hraw tag)
      exact ⟨⟨db, replaceTags_equal userId refuse hissue hstored htags' hsame', .rfl, rfl, rfl⟩,
        fun later => replaceTags_equal userId refuse hissue hstored htags' hsame'⟩
    · have hnodup : tags.Nodup := (Tags.normalizeTags_ok htags).1
      have hafter : tagsOf (rewritten now db issueId userId tags).issueTags issueId = tags :=
        tagsOf_rewritten userId hnodup
      refine ⟨_, _, replaceTags_changed userId refuse hissue hstored htags hsame,
        replaced_rewritten userId htags hsame, fun raw' hraw => ?_⟩
      obtain ⟨tags', htags', hperm⟩ := normalizeTags_congr hraw htags
      have hsorted : sorted tags' = sorted tags :=
        (sorted_eq_iff (hperm.nodup_iff.mpr hnodup) hnodup).mpr fun tag => hperm.mem_iff
      refine ⟨⟨_, ?_, sameUpToOrder_rewritten userId hnodup hperm⟩, fun later => ?_⟩
      · rw [replaceTags_changed userId refuse hissue hstored htags' fun h =>
          hsame fun tag => (h tag).trans (hraw tag).symm, hsorted]
      · have hissue' : issueIn (rewritten now db issueId userId tags) projectId issueId = some issue :=
          hissue
        rw [replaceTags_equal userId refuse hissue' (by rwa [hafter]) htags' fun tag => by
          rw [hafter, mem_normalizeTags htags, hraw tag], hafter]
  · simp only [replaceTags, h]
  · unfold replaceTags
    split
    · exact ⟨_, rfl⟩
    · simp only [commit_error (Issues.replaceIssueTags_foreign userId now _ hnone)]
      exact ⟨_, rfl⟩

/-- An issue with two tags, and a list that keeps one of them. -/
def Sample.store : Db :=
  { Db.empty with
    issues := Table.empty.insert ⟨1, "f", "t", .unresolved, 1, 0, 0⟩
    issueTags := [⟨1, "env:dev"⟩, ⟨1, "api"⟩, ⟨2, "api"⟩] }

def Sample.raw : List String := [" shard", "api", "", "api "]

theorem replacement_is_set_operation_sample :
    ∃ db', replaceTags .badRequest 5 Sample.store 1 1 7 Sample.raw = (.ok ["api", "shard"], db') ∧
      db'.activity.rows.length = 1 ∧
      ∀ later, replaceTags .badRequest later db' 1 1 7 Sample.raw = (.ok ["api", "shard"], db') := by
  obtain ⟨haccepted, -, -⟩ := replacement_is_set_operation .badRequest 5
    (show Sample.store.issueTags.Nodup by decide) 1 1 7
  obtain ⟨answer, db', hreplace, heffect, hagain⟩ := haccepted Sample.raw ["shard", "api"] _
    (by decide +kernel) rfl
  have hrun : (replaceTags .badRequest 5 Sample.store 1 1 7 Sample.raw).1 = .ok ["api", "shard"] := by
    decide +kernel
  obtain rfl : answer = ["api", "shard"] := by
    rw [hreplace] at hrun
    exact Except.ok.inj hrun
  refine ⟨db', hreplace, ?_, (hagain Sample.raw fun _ => Iff.rfl).2⟩
  rw [heffect.changed fun h => absurd ((h "env:dev").mp (by decide)) (by decide +kernel)]
  rfl

end Zbierak.TagSets
