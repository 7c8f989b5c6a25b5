import Zbierak.Isolation
import Zbierak.Server
import Zbierak.Lib.Merge

/-!
# Issue tags over runs

Two writers keep the tags of an issue: ingestion adds the labels of an event
while there is room, and an edit replaces the whole set. Both are a merge into
the rows of one issue, so one lemma about merging serves both.
-/
namespace Zbierak.IssueTags

open Server

/-- The tags of an issue in the order of their rows. -/
def tagsOf (rows : List IssueTag) (issueId : Int) : List String :=
  (rows.filter fun t => t.issueId = issueId).map IssueTag.tag

/-- What edits and ingestion keep true of the table. -/
structure Kept (rows : List IssueTag) : Prop where
  distinct : ∀ issueId, (tagsOf rows issueId).Nodup
  bounded : ∀ issueId, (tagsOf rows issueId).length ≤ Tags.maxTags
  valid : ∀ issueId, ∀ tag ∈ tagsOf rows issueId, Tags.validateTag tag = .ok tag

theorem mem_tagsOf {rows : List IssueTag} {issueId : Int} {tag : String} :
    tag ∈ tagsOf rows issueId ↔ ⟨issueId, tag⟩ ∈ rows := by
  simp only [tagsOf, List.mem_map, List.mem_filter, decide_eq_true_eq]
  constructor
  · rintro ⟨⟨_, _⟩, ⟨hmem, rfl⟩, rfl⟩
    exact hmem
  · exact fun h => ⟨_, ⟨h, rfl⟩, rfl⟩

theorem tagsOf_append (rows : List IssueTag) (target : Int) (tags : List String) (issueId : Int) :
    tagsOf (rows ++ tags.map (IssueTag.mk target)) issueId =
      if issueId = target then tagsOf rows issueId ++ tags else tagsOf rows issueId := by
  simp only [tagsOf, List.filter_append, List.filter_map, List.map_append, List.map_map]
  by_cases h : issueId = target
  · subst h
    simp [Function.comp_def]
  · simp [h, Ne.symm h, Function.comp_def]

/-- Labels are added up to the room that is left. -/
theorem mergeLabels_eq (issueId : Int) (labels : List String) (room : Int) (rows : List IssueTag) :
    Ingest.mergeLabels issueId labels room rows = rows ++
      ((Merge.fresh (tagsOf rows issueId) labels).take room.toNat).map (IssueTag.mk issueId) := by
  induction labels generalizing room rows with
  | nil => simp [Ingest.mergeLabels]
  | cons label rest ih =>
    unfold Ingest.mergeLabels
    split
    · next hroom => simp [Int.toNat_of_nonpos hroom]
    · next hroom =>
      split
      · next hmem => rw [ih, Merge.fresh_cons_of_mem (mem_tagsOf.mpr hmem)]
      · next hmem =>
        obtain ⟨n, hn⟩ : ∃ n : Nat, room = n + 1 := ⟨(room - 1).toNat, by omega⟩
        have hadded :
            tagsOf (rows ++ [⟨issueId, label⟩]) issueId = tagsOf rows issueId ++ [label] := by
          simpa using tagsOf_append rows issueId [label] issueId
        have htoNat : (room - 1).toNat = n ∧ room.toNat = n + 1 := by omega
        rw [ih, hadded, htoNat.1, htoNat.2,
          Merge.fresh_cons_of_not_mem fun h => hmem (mem_tagsOf.mp h)]
        simp

theorem insertTags_eq (issueId : Int) (tags : List String) (rows : List IssueTag) :
    Issues.insertTags issueId tags rows =
      rows ++ (Merge.fresh (tagsOf rows issueId) tags).map (IssueTag.mk issueId) := by
  induction tags generalizing rows with
  | nil => simp [Issues.insertTags]
  | cons tag rest ih =>
    rw [Issues.insertTags, ih]
    split
    · next hmem => rw [Merge.fresh_cons_of_mem (mem_tagsOf.mpr hmem)]
    · next hmem =>
      have hadded : tagsOf (rows ++ [⟨issueId, tag⟩]) issueId = tagsOf rows issueId ++ [tag] := by
        simpa using tagsOf_append rows issueId [tag] issueId
      rw [hadded, Merge.fresh_cons_of_not_mem fun h => hmem (mem_tagsOf.mp h)]
      simp

/-- Ingestion merges the labels into the tags of the issue. -/
theorem tagsOf_mergeLabels (target : Int) (labels : List String) (rows : List IssueTag)
    (issueId : Int) :
    tagsOf (Ingest.mergeLabels target labels
        (Tags.maxTags - (rows.filter fun t => t.issueId = target).length) rows) issueId =
      if issueId = target then Merge.merge Tags.maxTags (tagsOf rows issueId) labels
      else tagsOf rows issueId := by
  have hlen : (rows.filter fun t => t.issueId = target).length = (tagsOf rows target).length := by
    simp [tagsOf]
  rw [mergeLabels_eq, tagsOf_append, hlen]
  by_cases h : issueId = target
  · subst h
    simp [Merge.merge]
  · simp [h]

/-- An edit with distinct tags leaves the issue with exactly these. -/
theorem tagsOf_replaced (target : Int) {tags : List String} (hnodup : tags.Nodup)
    (rows : List IssueTag) (issueId : Int) :
    tagsOf (Issues.insertTags target tags (rows.filter fun t => t.issueId ≠ target)) issueId =
      if issueId = target then tags else tagsOf rows issueId := by
  have hcleared : tagsOf (rows.filter fun t => t.issueId ≠ target) target = [] := by
    simp [tagsOf]
  rw [insertTags_eq, hcleared, Merge.fresh_of_nodup hnodup (by simp), tagsOf_append]
  by_cases h : issueId = target
  · subst h
    rw [hcleared, List.nil_append, if_pos rfl, if_pos rfl]
  · have hother : ∀ t ∈ rows, (decide (t.issueId = issueId) && decide (t.issueId ≠ target)) =
        decide (t.issueId = issueId) := by
      intro t _
      by_cases ht : t.issueId = issueId
      · simp [ht, h]
      · simp [ht]
    rw [if_neg h, if_neg h, tagsOf, List.filter_filter, List.filter_congr hother, tagsOf]

/-- One issue gets a set of tags that obeys the rules. -/
theorem Kept.set {rows rows' : List IssueTag} (h : Kept rows) {target : Int} {tags : List String}
    (hrows : ∀ issueId, tagsOf rows' issueId = if issueId = target then tags else tagsOf rows issueId)
    (hdistinct : tags.Nodup) (hbounded : tags.length ≤ Tags.maxTags)
    (hvalid : ∀ tag ∈ tags, Tags.validateTag tag = .ok tag) : Kept rows' := by
  constructor <;> intro issueId <;> rw [hrows issueId] <;> split
  · exact hdistinct
  · exact h.distinct issueId
  · exact hbounded
  · exact h.bounded issueId
  · exact hvalid
  · exact h.valid issueId

theorem kept_merge {rows : List IssueTag} (h : Kept rows) (target : Int)
    (eventTags : List (String × String)) :
    Kept (Ingest.mergeLabels target (Tags.labelsFromEventTags eventTags)
      (Tags.maxTags - (rows.filter fun t => t.issueId = target).length) rows) := by
  have hdistinct := Merge.nodup_merge (h.distinct target) Tags.maxTags
    (Tags.labelsFromEventTags eventTags)
  have hbounded := Merge.length_merge_le (h.bounded target) (Tags.labelsFromEventTags eventTags)
  have hset : ∀ issueId, tagsOf (Ingest.mergeLabels target (Tags.labelsFromEventTags eventTags)
      (Tags.maxTags - (rows.filter fun t => t.issueId = target).length) rows) issueId =
      if issueId = target then
        Merge.merge Tags.maxTags (tagsOf rows target) (Tags.labelsFromEventTags eventTags)
      else tagsOf rows issueId := by
    intro issueId
    rw [tagsOf_mergeLabels]
    split
    · next heq => rw [heq]
    · rfl
  refine h.set hset hdistinct hbounded fun tag htag => ?_
  rcases Merge.mem_merge htag with hold | hnew
  · exact h.valid target tag hold
  · exact Tags.validateTag_iff.mpr (Tags.labels_valid hnew)

/-- What an operator submits: the text of the form, or the list of the API. -/
inductive TagInput where
  | form (input : String)
  | api (payload : List String)

def TagInput.normalize : TagInput → Except String (List String)
  | .form input => Tags.normalizeCommaSeparated input
  | .api payload => Tags.normalizeTags payload

theorem TagInput.normalize_ok {input : TagInput} {tags : List String}
    (h : input.normalize = .ok tags) :
    tags.Nodup ∧ tags.length ≤ Tags.maxTags ∧ ∀ tag ∈ tags, Tags.Valid tag := by
  cases input with
  | form input => exact Tags.normalizeTags_ok h
  | api payload => exact Tags.normalizeTags_ok h

inductive Label where
  | edit (projectId issueId userId : Int) (input : TagInput)
  | other (op : Op)

/-- The transaction that runs as `edit` here. -/
def isEdit : Op → Bool
  | .request (.replaceIssueTags _ _ _ _) => true
  | _ => false

/-- Edits commit between the other operations of the service. Input that is
refused starts no transaction. -/
def step (cfg : Setup) (db : Db) (label : Int × Label) : Option Db :=
  match label.2 with
  | .edit projectId issueId userId input =>
    match input.normalize with
    | .error _ => some db
    | .ok tags =>
      some (exec cfg label.1 db (.request (.replaceIssueTags projectId issueId userId tags))).2
  | .other op => if isEdit op then none else some (exec cfg label.1 db op).2

section Handlers

variable (cfg : Setup) (now : Int) (db : Db) (slug : String) (issueId : Int)

/-- A request for new tags is an edit, or is refused without a write. -/
def Edits (userId : Int) (input : TagInput) (db' : Db) : Prop :=
  db' = db ∨ ∃ projectId, step cfg db (now, .edit projectId issueId userId input) = some db'

variable {cfg now db issueId}

theorem edits_transact (projectId userId : Int) {input : TagInput} {tags : List String}
    (htags : input.normalize = .ok tags)
    (answer : Db → Unit → Except AppError IssueApi.Response) :
    Edits cfg now db issueId userId input
      (IssueApi.transact db (Issues.replaceIssueTags projectId issueId userId tags now) answer).2 := by
  refine .inr ⟨projectId, ?_⟩
  simp only [step, htags, exec, execRequest, silent, IssueApi.transact]
  split <;> next heq => simp only [heq]

theorem mapError_ok {ε ε' α : Type} {f : ε → ε'} {result : Except ε α} {a : α}
    (h : result.mapError f = .ok a) : result = .ok a := by
  cases result with
  | error e => cases h
  | ok b =>
    cases h
    rfl

theorem updateIssueTags_edits (userId : Int) (payload : List String) :
    Edits cfg now db issueId userId (.api payload)
      (IssueApi.updateIssueTags now db userId slug issueId payload).2 := by
  refine Isolation.checked_snd (Edits cfg now db issueId userId (.api payload)) (.inl rfl)
    fun projectId _ => ?_
  refine Isolation.checked_snd (Edits cfg now db issueId userId (.api payload)) (.inl rfl)
    fun tags htags => ?_
  exact edits_transact projectId userId (mapError_ok htags) _

theorem updateIssueTagsForm_edits (session : Auth.Session) (form : IssueApi.TagsForm) :
    Edits cfg now db issueId session.userId (.form form.tags)
      (IssueApi.updateIssueTagsForm now db session slug issueId form).2 := by
  refine Isolation.checked_snd (Edits cfg now db issueId session.userId (.form form.tags)) (.inl rfl)
    fun _ _ => ?_
  refine Isolation.checked_snd (Edits cfg now db issueId session.userId (.form form.tags)) (.inl rfl)
    fun projectId _ => ?_
  refine Isolation.checked_snd (Edits cfg now db issueId session.userId (.form form.tags)) (.inl rfl)
    fun tags htags => ?_
  exact edits_transact projectId session.userId (mapError_ok htags) _

end Handlers

theorem prepare_labels {env : Crates} {body : Bytes} {p : Ingest.Prepared}
    (h : Ingest.prepare env body = .ok p) :
    ∃ eventTags, p.labels = Tags.labelsFromEventTags eventTags := by
  unfold Ingest.prepare at h
  repeat' split at h
  all_goals cases h
  exact ⟨_, rfl⟩

theorem kept_edit {cfg : Setup} {now : Int} {db : Db} (h : Kept db.issueTags)
    (projectId issueId userId : Int) {input : TagInput} {tags : List String}
    (htags : input.normalize = .ok tags) :
    Kept (exec cfg now db (.request (.replaceIssueTags projectId issueId userId tags))).2.issueTags := by
  obtain ⟨hnodup, hlen, hvalid⟩ := TagInput.normalize_ok htags
  refine commit_snd (fun db' => Kept db'.issueTags) h fun db' _ htx => ?_
  obtain ⟨-, rfl | ⟨details, rfl⟩⟩ := Issues.replaceIssueTags_ok htx
  · exact h
  · exact h.set (tagsOf_replaced issueId hnodup db.issueTags) hnodup hlen fun tag htag =>
      Tags.validateTag_iff.mpr (hvalid tag htag)

theorem kept_other {cfg : Setup} {now : Int} {db : Db} (h : Kept db.issueTags) {op : Op}
    (hop : isEdit op = false) : Kept (exec cfg now db op).2.issueTags := by
  have hframe := exec_frame cfg now db op
  cases op with
  | request r =>
    cases r with
    | ingest req body storageId =>
      rcases exec_ingest cfg now db req body storageId with
        ⟨e, hexec⟩ | ⟨response, -, hexec⟩ | ⟨p, hp, -, -, -, hexec⟩ <;> rw [hexec]
      · exact h
      · exact h
      · obtain ⟨eventTags, hlabels⟩ := prepare_labels hp
        simp only [Ingest.accepted, hlabels]
        exact kept_merge h _ eventTags
    | replaceIssueTags => cases hop
    | _ => exact (hframe .issueTags rfl).symm ▸ h
  | worker w => exact (hframe .issueTags rfl).symm ▸ h

theorem kept_step {cfg : Setup} {db db' : Db} {label : Int × Label} (h : Kept db.issueTags)
    (hstep : step cfg db label = some db') : Kept db'.issueTags := by
  unfold step at hstep
  split at hstep
  · next projectId issueId userId input _ =>
    split at hstep
    · cases hstep
      exact h
    · next tags htags =>
      obtain rfl := Option.some.inj hstep
      exact kept_edit h projectId issueId userId htags
  · next op _ =>
    split at hstep
    · cases hstep
    · next hop =>
      obtain rfl := Option.some.inj hstep
      exact kept_other h (by simpa using hop)

/-- In every reachable store every issue has at most fifty tags, all distinct, each
accepted unchanged by the validation. -/
theorem tags_bounded {cfg : Setup} {labels : List (Int × Label)} {db : Db}
    (hrun : Runs.run (step cfg) labels .empty = some db) (issueId : Int) :
    (tagsOf db.issueTags issueId).length ≤ 50 ∧ (tagsOf db.issueTags issueId).Nodup ∧
      ∀ tag ∈ tagsOf db.issueTags issueId, Tags.validateTag tag = .ok tag := by
  have hempty : Kept Db.empty.issueTags := by
    constructor <;> simp [Db.empty, tagsOf]
  have h : Kept db.issueTags := Runs.run_invariant (I := fun db => Kept db.issueTags)
    (fun _ _ _ h hs => kept_step h hs) hrun hempty
  exact ⟨h.bounded issueId, h.distinct issueId, h.valid issueId⟩

/-- A body that is a valid event, new to the store, with fresh storage id. -/
structure FirstIngest (env : Crates) (db : Db) (req : Ingest.IngestProject) (body : Bytes)
    (storageId : String) (event : Event) : Prop where
  reads : ∃ value, env.valueFromSlice body = .ok value ∧ env.eventDeserialize value = .ok event
  valid : event.validate env.parseRfc3339 = .ok ()
  utf8 : (Text.fromUtf8 body).isSome
  new : Ingest.findRaw db req.projectId event.eventId = none
  project : (db.projects.get? req.projectId).isSome
  key : (db.ingestKeys.get? req.keyId).isSome
  rawId : ∀ r ∈ db.rawEvents, r.id ≠ storageId
  eventId : ∀ e ∈ db.events, e.id ≠ storageId

theorem FirstIngest.accepts {env : Crates} {db : Db} {req : Ingest.IngestProject} {body : Bytes}
    {storageId : String} {event : Event} (h : FirstIngest env db req body storageId event)
    (publicUrl : Option String) (now : Int) :
    ∃ p, p.labels = Tags.labelsFromEventTags event.tags ∧
      Ingest.ingest env publicUrl req body storageId now db =
        (.ok ⟨p.eventId, Ingest.issueOf req p db.issues, p.fingerprint, false⟩,
          Ingest.accepted env publicUrl req body p storageId now db) := by
  obtain ⟨value, hparse, hread⟩ := h.reads
  obtain ⟨payload, hutf8⟩ := Option.isSome_iff_exists.mp h.utf8
  obtain ⟨p, hprepare, hid, hlabels⟩ : ∃ p, Ingest.prepare env body = .ok p ∧
      p.eventId = event.eventId ∧ p.labels = Tags.labelsFromEventTags event.tags := by
    simp only [Ingest.prepare, hparse, hread, h.valid, hutf8]
    exact ⟨_, rfl, rfl, rfl⟩
  have hinserted : Ingest.insertRawEvent db (Ingest.rawRow req body p storageId now) =
      .ok (some { db with
        rawEvents := db.rawEvents ++ [Ingest.rawRow req body p storageId now] }) := by
    have hfree : ¬ (db.rawEvents.any fun r => r.id = storageId) = true := by simpa using h.rawId
    have hproject : ¬ (db.projects.get? req.projectId).isNone = true := by
      simpa using Option.isSome_iff_ne_none.mp h.project
    have hkey : ¬ (db.ingestKeys.get? req.keyId).isNone = true := by
      simpa using Option.isSome_iff_ne_none.mp h.key
    simp only [Ingest.insertRawEvent, Ingest.rawRow, hid, h.new, Option.isSome_none,
      Bool.false_eq_true, if_false, if_neg hfree, if_neg hproject, if_neg hkey]
  have hevent : ¬ (db.events.any fun e => e.id = storageId) = true := by simpa using h.eventId
  refine ⟨p, hlabels, ?_⟩
  have htx : Ingest.ingestTx env publicUrl req body p storageId now db =
      .ok (Ingest.accepted env publicUrl req body p storageId now db,
        ⟨p.eventId, Ingest.issueOf req p db.issues, p.fingerprint, false⟩) := by
    change (Ingest.insertRawEvent db (Ingest.rawRow req body p storageId now) >>= _) = _
    simp only [hinserted, bind, Except.bind, Ingest.acceptNew_eq, if_neg hevent]
  simp only [Ingest.ingest, hprepare, commit_ok htx]

/-- Every event that was accepted as a new one came in such a body. -/
theorem firstIngest_of_accepted {cfg : Setup} {now : Int} {db db' : Db} {req : Ingest.IngestProject}
    {body : Bytes} {storageId : String} {response : IngestResponse}
    (h : exec cfg now db (.request (.ingest req body storageId)) = (.ok (.ingested response), db'))
    (hfirst : response.duplicate = false) :
    ∃ event, FirstIngest cfg.env db req body storageId event := by
  have houtcome := Ingest.ingest_cases cfg.env cfg.publicUrl req body storageId now db
  simp only [exec, execRequest] at h
  generalize Ingest.ingest cfg.env cfg.publicUrl req body storageId now db = result at h houtcome
  cases houtcome with
  | refused e => cases h
  | repeated =>
    cases h
    cases hfirst
  | accepted p hp hraw hid hproject hkey hevent =>
    unfold Ingest.prepare at hp
    split at hp
    · cases hp
    · next value hparse =>
      split at hp
      · cases hp
      · next event hread =>
        split at hp
        · cases hp
        · next hvalid =>
          split at hp
          · cases hp
          · next payload hutf8 =>
            cases hp
            exact ⟨event, ⟨value, hparse, hread⟩, hvalid, by simp [hutf8], hraw, hproject, hkey, hid,
              hevent⟩

/-- A new event is accepted whatever its tags are, and its issue gets the first
labels that are valid and not stored yet, as many as there is room for. A tag
without a valid label changes nothing. -/
theorem tags_merged (cfg : Setup) (now : Int) {db : Db} {req : Ingest.IngestProject} {body : Bytes}
    {storageId : String} {event : Event} (h : FirstIngest cfg.env db req body storageId event) :
    ∃ response db', exec cfg now db (.request (.ingest req body storageId)) =
        (.ok (.ingested response), db') ∧ response.duplicate = false ∧
      (∀ issueId, tagsOf db'.issueTags issueId =
        if issueId = response.issueId then
          let stored := tagsOf db.issueTags issueId
          stored ++ ((Merge.fresh stored (Tags.labelsFromEventTags event.tags)).take
            (50 - stored.length))
        else tagsOf db.issueTags issueId) ∧
      ∀ before entry after, event.tags = before ++ entry :: after → Tags.labelOf entry = none →
        Tags.labelsFromEventTags event.tags = Tags.labelsFromEventTags (before ++ after) := by
  obtain ⟨p, hlabels, haccepted⟩ := h.accepts cfg.publicUrl now
  refine ⟨_, _, by simp only [exec, execRequest, haccepted]; rfl, rfl, fun issueId => ?_, ?_⟩
  · simp only [Ingest.accepted, hlabels]
    exact tagsOf_mergeLabels _ _ db.issueTags issueId
  · intro before entry after htags hnone
    simp [Tags.labelsFromEventTags, htags, List.filterMap_append, hnone]

/-- An event with a tag that makes no label, one with a value and one without. -/
def Sample.taggedText : String :=
  "\x7b\"version\":1,\"event_id\":\"e1\",\"timestamp\":\"2026-01-02T03:04:05Z\",\"message\":\"m\"," ++
    "\"severity\":\"error\",\"tags\":\x7b\"bad tag\":\"v\",\"env\":\"prod\",\"shard\":\"\"\x7d\x7d"

def Sample.taggedEvent : Event :=
  { Sample.event "m" with tags := [("bad tag", "v"), ("env", "prod"), ("shard", "")] }

def Sample.taggedTree : Value :=
  .object [("event_id", .string "e1"), ("message", .string "m"), ("severity", .string "error"),
    ("tags", .object [("bad tag", .string "v"), ("env", .string "prod"), ("shard", .string "")]),
    ("timestamp", .string "2026-01-02T03:04:05Z"), ("version", .number (.int 1))]

def Sample.taggedSetup : Setup where
  env := { Sample.crates with
    valueFromSlice := fun bytes =>
      if bytes = Text.toUtf8 Sample.taggedText then .ok Sample.taggedTree
      else Sample.valueFromSlice bytes
    eventDeserialize := fun tree =>
      if (tree.get "tags").isSome then .ok Sample.taggedEvent else Sample.eventDeserialize tree }
  publicUrl := none

def Sample.installed : Db :=
  after Sample.taggedSetup (Server.Sample.installation.map fun r => (0, .request r)) .empty

def Sample.tagged : Request := .ingest ⟨1, 1, "demo"⟩ (Text.toUtf8 Sample.taggedText) "s1"

theorem Sample.firstIngest : FirstIngest Sample.taggedSetup.env Sample.installed ⟨1, 1, "demo"⟩
    (Text.toUtf8 Sample.taggedText) "s1" Sample.taggedEvent where
  reads := ⟨Sample.taggedTree, by simp [Sample.taggedSetup], rfl⟩
  valid := by decide +kernel
  utf8 := by decide +kernel
  new := by decide +kernel
  project := by decide +kernel
  key := by decide +kernel
  rawId := by decide +kernel
  eventId := by decide +kernel

theorem tags_merged_seed : ∃ response db', exec Sample.taggedSetup 0 Sample.installed
      (.request Sample.tagged) = (.ok (.ingested response), db') ∧
    tagsOf db'.issueTags response.issueId = ["env:prod", "shard"] := by
  obtain ⟨response, db', hexec, -, htags, -⟩ := tags_merged Sample.taggedSetup 0 Sample.firstIngest
  have hnone : Sample.installed.issueTags = [] := rfl
  have hlabels : Tags.labelsFromEventTags Sample.taggedEvent.tags = ["env:prod", "shard"] := by
    decide +kernel
  refine ⟨response, db', hexec, ?_⟩
  rw [htags, if_pos rfl, hnone, hlabels]
  rfl

/-- The event seeds the tags, an operator writes others, and one edit is refused. -/
def Sample.tagging : List (Int × Label) :=
  (Server.Sample.installation ++ [Sample.tagged]).map (fun r => (0, .other (.request r))) ++
    [(1, .edit 1 1 1 (.form " env:dev, shard ,,env:dev")), (2, .edit 1 1 1 (.api ["a b"]))]

set_option maxRecDepth 20000 in
theorem tags_bounded_tagging :
    ∃ db, Runs.run (step Sample.taggedSetup) Sample.tagging .empty = some db ∧
      tagsOf db.issueTags 1 = ["env:dev", "shard"] ∧
      ∀ issueId, (tagsOf db.issueTags issueId).length ≤ 50 := by
  have hseen : (Runs.run (step Sample.taggedSetup) Sample.tagging .empty).map
      (fun db => tagsOf db.issueTags 1) = some ["env:dev", "shard"] := by decide +kernel
  obtain ⟨db, hrun, htags⟩ := Option.map_eq_some_iff.mp hseen
  exact ⟨db, hrun, htags, fun issueId => (tags_bounded hrun issueId).1⟩

end Zbierak.IssueTags
