import Zbierak.TagSets
import Zbierak.Slugs
import Zbierak.Lib.Percent
import Mathlib.Data.Bool.AllAny
import Mathlib.Data.List.TakeWhile

/-!
# Tags in forms and links

The page of an issue shows its tags in a field, joined by commas; a list of issues
links each tag to the list that is filtered by it. Both lead back to the tags.
-/
namespace Zbierak.TagLinks

open Issues (issueIn tagsForIssue)
open TagSets (entries)

/-- Tags that an issue can store. -/
structure StoredTags where
  tags : List String
  distinct : tags.Nodup
  few : tags.length ≤ Tags.maxTags
  accepted : ∀ tag ∈ tags, Tags.validateTag tag = .ok tag

/-- The value of the field for the tags. -/
def editValue (tags : List String) : String := ", ".intercalate tags

/-- The filter of the templates. -/
def urlencode (value : String) : String := String.ofList (Percent.encode (Text.toUtf8 value))

/-- The address behind a tag in a list of issues. -/
def tagHref (slug tag : String) : String := "/projects/" ++ slug ++ "?tag=" ++ urlencode tag

/-- The query of an address, between the first `?` and a `#`. -/
def hrefQuery (href : String) : List Char :=
  (href.toList.dropWhile (· != '?')).tail.takeWhile (· != '#')

/-- What the server filters by when a link is followed, if its query is well-formed. -/
def followLink (href : String) : Option (Except AppError (List String)) :=
  (Percent.formPairs (Boundary.encode (hrefQuery href))).map fun pairs =>
    IssueApi.filterTags (pairs.lookup "tag")

/-- A blank before a text is trimmed. -/
theorem trim_blank (s : String) : Text.trim (String.ofList (' ' :: s.toList)) = Text.trim s := by
  rw [Text.trim, Text.trim, String.toList_ofList, Text.trimStart, Text.trimStart,
    List.dropWhile_cons_of_pos (by decide)]

/-- The pieces between the commas are the tags, all but the first with a blank. -/
theorem splitList_intercalate {tag : String} {tags : List String}
    (h : ∀ t ∈ tag :: tags, ',' ∉ t.toList) :
    Text.splitList ',' (", ".intercalate (tag :: tags)).toList =
      tag.toList :: tags.map fun t => ' ' :: t.toList := by
  induction tags generalizing tag with
  | nil =>
    obtain ⟨htag, -⟩ := List.forall_mem_cons.mp h
    rw [String.intercalate_singleton, Text.splitList_of_not_mem htag]
    rfl
  | cons next tags ih =>
    obtain ⟨htag, htags⟩ := List.forall_mem_cons.mp h
    have hjoin : (", ".intercalate (tag :: next :: tags)).toList =
        tag.toList ++ ',' :: ' ' :: (", ".intercalate (next :: tags)).toList := by
      rw [String.intercalate_cons_cons]
      simp
    have hblank : ¬ ' ' = ',' := by decide
    rw [hjoin, Text.splitList_append htag, Text.splitList, if_neg hblank, ih htags]
    rfl

/-- The value of the field has the tags as its entries. -/
theorem entries_editValue {tags : List String} (h : ∀ tag ∈ tags, Tags.Valid tag) :
    entries (Text.split ',' (editValue tags)) = tags := by
  cases tags with
  | nil => decide
  | cons tag tags =>
    have hcomma : ∀ t ∈ tag :: tags, ',' ∉ t.toList := fun t ht hmem => ((h t ht).plain ',' hmem).2 rfl
    have htrim : ∀ t ∈ tag :: tags, Text.trim t = t := fun t ht => (h t ht).trim
    obtain ⟨htag, htags⟩ := List.forall_mem_cons.mp htrim
    have hmap : (tags.map fun t => Text.trim (String.ofList (' ' :: t.toList))) = tags := by
      conv_rhs => rw [← List.map_id tags]
      exact List.map_congr_left fun t ht => (trim_blank t).trans (htags t ht)
    have hall : ∀ t ∈ tag :: tags, decide (t ≠ "") = true := fun t ht =>
      decide_eq_true (h t ht).nonempty
    rw [entries, Text.split, editValue, splitList_intercalate hcomma, List.map_cons, List.map_cons,
      String.ofList_toList, htag, List.map_map, List.map_map]
    change (tag :: tags.map fun t => Text.trim (String.ofList (' ' :: t.toList))).filter _ = _
    rw [hmap, List.filter_eq_self.mpr hall]

theorem StoredTags.valid (t : StoredTags) : ∀ tag ∈ t.tags, Tags.Valid tag := fun tag htag =>
  Tags.validateTag_iff.mp (t.accepted tag htag)

theorem normalize_editValue (t : StoredTags) :
    Tags.normalizeCommaSeparated (editValue t.tags) = .ok t.tags := by
  rw [Tags.normalizeCommaSeparated, TagSets.normalizeTags_iff, entries_editValue t.valid]
  exact ⟨t.valid, (Merge.fresh_of_nodup t.distinct (by simp)).symm, t.few⟩

def StoredTags.single {tag : String} (h : Tags.Valid tag) : StoredTags where
  tags := [tag]
  distinct := List.nodup_singleton tag
  few := show 1 ≤ Tags.maxTags by decide
  accepted t ht := by
    rw [List.mem_singleton.mp ht]
    exact Tags.validateTag_iff.mpr h

/-- One valid tag makes up a filter. -/
theorem filterTags_single {tag : String} (h : Tags.Valid tag) :
    IssueApi.filterTags (some tag) = .ok [tag] := by
  have hone : Tags.normalizeCommaSeparated (editValue [tag]) = .ok [tag] :=
    normalize_editValue (.single h)
  rw [editValue, String.intercalate_singleton] at hone
  rw [IssueApi.filterTags, hone]
  rfl

/-- The query of a link to a project is what stands behind the question mark. -/
theorem hrefQuery_tagHref {slug : String} (h : Forms.validateSlug slug = .ok ()) (tag : String) :
    hrefQuery (tagHref slug tag) = "tag=".toList ++ Percent.encode (Text.toUtf8 tag) := by
  have hpath : ∀ c ∈ "/projects/".toList ++ slug.toList, (c != '?') = true := by
    intro c hc
    rcases List.mem_append.mp hc with hc | hc
    · exact List.all_eq_true.mp (show "/projects/".toList.all (· != '?') = true by decide) c hc
    · rw [bne_iff_ne]
      rintro rfl
      exact absurd (Slugs.isSlugChar_of_validateSlug h '?' hc) (by decide)
  have hquery : ∀ c ∈ "tag=".toList ++ Percent.encode (Text.toUtf8 tag), (c != '#') = true := by
    intro c hc
    rcases List.mem_append.mp hc with hc | hc
    · exact List.all_eq_true.mp (show "tag=".toList.all (· != '#') = true by decide) c hc
    · rw [bne_iff_ne]
      rintro rfl
      exact absurd (Percent.safe_encode '#' hc) (by unfold Percent.Safe; decide)
  have hhref : (tagHref slug tag).toList = ("/projects/".toList ++ slug.toList) ++
      '?' :: ("tag=".toList ++ Percent.encode (Text.toUtf8 tag)) := by
    simp [tagHref, urlencode]
  rw [hrefQuery, hhref, List.dropWhile_append_of_pos hpath]
  exact List.takeWhile_eq_self_iff.mpr hquery

theorem followLink_tagHref {slug tag : String} (hslug : Forms.validateSlug slug = .ok ())
    (htag : Tags.Valid tag) : followLink (tagHref slug tag) = some (.ok [tag]) := by
  have hname : ("tag=".toList.all fun c => c.toNat < 128) = true := by decide
  have hascii : ∀ c ∈ "tag=".toList ++ Percent.encode (Text.toUtf8 tag), c.toNat < 128 := by
    intro c hc
    rcases List.mem_append.mp hc with hc | hc
    · exact List.all_iff_forall_prop.mp hname c hc
    · exact (Percent.safe_encode c hc).ascii
  have hkey : ((Percent.asciiBytes "tag".toList).all fun b => b ≠ 0x26 ∧ b ≠ 0x3D) = true := by decide
  have hpairs : Percent.formPairs (Percent.asciiBytes "tag".toList ++ 0x3D ::
      Percent.asciiBytes (Percent.encode (Text.toUtf8 tag))) = some [("tag", tag)] :=
    Percent.formPairs_single (List.all_iff_forall_prop.mp hkey) (by decide) tag
  have hbytes : Percent.asciiBytes ("tag=".toList ++ Percent.encode (Text.toUtf8 tag)) =
      Percent.asciiBytes "tag".toList ++ 0x3D ::
        Percent.asciiBytes (Percent.encode (Text.toUtf8 tag)) := by
    rw [Percent.asciiBytes, List.map_append]
    rfl
  rw [followLink, hrefQuery_tagHref hslug, Percent.encode_ascii hascii, hbytes, hpairs,
    Option.map_some]
  exact congrArg some (filterTags_single htag)

/-- Saving the field as it is shown changes nothing. -/
theorem save_untouched {now : Int} {db : Db} {session : Auth.Session} {slug : String}
    {projectId issueId : Int} {issue : Issue} {csrfToken : String} (t : StoredTags)
    (hkey : db.issueTags.Nodup) (hcsrf : Auth.checkCsrf session csrfToken = .ok ())
    (hrole : Auth.requireProjectRole db session.userId slug .developer = .ok projectId)
    (hissue : issueIn db projectId issueId = some issue)
    (htags : tagsForIssue db issueId = t.tags) :
    IssueApi.updateIssueTagsForm now db session slug issueId ⟨csrfToken, editValue t.tags⟩ =
      (.ok (IssueApi.issuePage slug issueId), db) := by
  have hsame : TagSets.SameSet (IssueTags.tagsOf db.issueTags issueId)
      (entries (Text.split ',' (editValue t.tags))) := by
    intro tag
    rw [entries_editValue t.valid, ← htags]
    exact (List.mem_insertionSort (· ≤ ·)).symm
  rw [TagSets.updateIssueTagsForm_eq hcsrf hrole, TagSets.replaceTags_equal session.userId .badRequest
    hissue (TagSets.nodup_tagsOf hkey issueId) (normalize_editValue t) hsame]
  rfl

/-- The tags of an issue come back from the field in which they are edited, so saving
it untouched changes nothing, and each from the link that filters by it. -/
theorem tags_survive_interface (t : StoredTags) :
    Tags.normalizeCommaSeparated (editValue t.tags) = .ok t.tags ∧
    (∀ now db session slug projectId issueId issue csrfToken, db.issueTags.Nodup →
      Auth.checkCsrf session csrfToken = .ok () →
      Auth.requireProjectRole db session.userId slug .developer = .ok projectId →
      issueIn db projectId issueId = some issue → tagsForIssue db issueId = t.tags →
      IssueApi.updateIssueTagsForm now db session slug issueId ⟨csrfToken, editValue t.tags⟩ =
        (.ok (IssueApi.issuePage slug issueId), db)) ∧
    ∀ tag ∈ t.tags, ∀ slug, Forms.validateSlug slug = .ok () →
      followLink (tagHref slug tag) = some (.ok [tag]) :=
  ⟨normalize_editValue t,
    fun _ _ _ _ _ _ _ _ hkey hcsrf hrole hissue htags =>
      save_untouched t hkey hcsrf hrole hissue htags,
    fun tag htag _ hslug => followLink_tagHref hslug (t.valid tag htag)⟩

end Zbierak.TagLinks
