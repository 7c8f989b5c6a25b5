import Zbierak.EventStore
import Zbierak.Lib.Groups

/-!
# The tracker as a function of its history

What a tracker is told is a stream: an event was accepted for a fingerprint, or
an issue was given a status. `issue` says what the row of an issue should be,
from the part of the stream about it; the service never sees the stream and
updates its rows in place. The table of issues is the one rendered from the
stream, rows and keys.
-/
namespace Zbierak.Tracker

open Server

/-- Events of one project with one fingerprint belong together. -/
abbrev Key := Int × String

inductive Entry where
  | seen (key : Key) (title : String) (now : Int)
  | marked (key : Key) (status : IssueStatus)
  deriving DecidableEq, Repr

def Entry.key : Entry → Key
  | .seen key _ _ => key
  | .marked key _ => key

def Entry.isSeen : Entry → Bool
  | .seen _ _ _ => true
  | .marked _ _ => false

/-- A recurrence opens a resolved issue again. -/
def Entry.move (status : IssueStatus) : Entry → IssueStatus
  | .seen _ _ _ => if status = .resolved then .unresolved else status
  | .marked _ target => target

/-- Titles and times of the events among the entries. -/
def sightings (entries : List Entry) : List (String × Int) :=
  entries.filterMap fun
    | .seen _ title now => some (title, now)
    | .marked _ _ => none

/-- The row of an issue, from what the stream says about it. -/
def issue (key : Key) (entries : List Entry) : Issue where
  projectId := key.1
  fingerprint := key.2
  title := ((sightings entries).head?.map Prod.fst).getD ""
  status := entries.foldl Entry.move .unresolved
  eventCount := (sightings entries).length
  firstSeenAt := ((sightings entries).head?.map Prod.snd).getD 0
  lastSeenAt := ((sightings entries).getLast?.map Prod.snd).getD 0

/-- Rows with the keys 1, 2, 3 and so on. -/
def numbered (rows : List Issue) : List (Int × Issue) :=
  (rows.zipIdx 1).map fun r => ((r.2 : Int), r.1)

/-- What the answer to an operation says about issues. -/
def observe (cfg : Setup) (now : Int) (db : Db) : Op → List Entry
  | .request (.ingest req body storageId) =>
    match (exec cfg now db (.request (.ingest req body storageId))).1, Ingest.prepare cfg.env body with
    | .ok (.ingested response), .ok p =>
      if response.duplicate then [] else [.seen (req.projectId, p.fingerprint) p.title now]
    | _, _ => []
  | .request (.setIssueStatus projectId issueId _ status) =>
    match Issues.issueIn db projectId issueId with
    | some i => [.marked (i.projectId, i.fingerprint) status]
    | none => []
  | _ => []

/-- The stream of a run. -/
def history (cfg : Setup) : List (Int × Op) → Db → List Entry
  | [], _ => []
  | op :: ops, db => observe cfg op.1 db op.2 ++ history cfg ops (exec cfg op.1 db op.2).2

/-- The rows that the stream calls for. -/
def rendered (entries : List Entry) : List Issue := Groups.table Entry.key Entry.isSeen issue entries

def keyOf (i : Issue) : Key := (i.projectId, i.fingerprint)

@[simp] theorem keyOf_issue (key : Key) (entries : List Entry) : keyOf (issue key entries) = key := rfl

theorem numbered_snoc (rows : List Issue) (i : Issue) :
    numbered (rows ++ [i]) = numbered rows ++ [((rows.length : Int) + 1, i)] := by
  simp [numbered, List.zipIdx_append, Int.add_comm]

theorem numbered_map (rows : List Issue) (f : Issue → Issue) :
    numbered (rows.map f) = (numbered rows).map fun r => (r.1, f r.2) := by
  simp [numbered, List.zipIdx_map]

theorem map_snd_numbered (rows : List Issue) : (numbered rows).map Prod.snd = rows := by
  simp only [numbered, List.map_map]
  exact List.zipIdx_map_fst 1 rows

@[simp] theorem sightings_seen (entries : List Entry) (key : Key) (title : String) (now : Int) :
    sightings (entries ++ [.seen key title now]) = sightings entries ++ [(title, now)] := by
  simp [sightings]

@[simp] theorem sightings_marked (entries : List Entry) (key : Key) (status : IssueStatus) :
    sightings (entries ++ [.marked key status]) = sightings entries := by
  simp [sightings]

/-- A group that was opened has a first event. -/
theorem sightings_opened {e : Entry} (he : e.isSeen = true) (rest : List Entry) :
    ∃ first later, sightings (e :: rest) = first :: later := by
  cases e with
  | seen key title now => exact ⟨_, _, rfl⟩
  | marked key status => cases he

/-- One more event for an issue. -/
theorem issue_seen {key k : Key} {entries : List Entry} {first : String × Int}
    {later : List (String × Int)} (h : sightings entries = first :: later) (title : String) (now : Int) :
    issue key (entries ++ [.seen k title now]) = Ingest.recur now (issue key entries) := by
  simp only [issue, Ingest.recur, sightings_seen, h, List.foldl_append, List.getLast?_concat]
  simp [Entry.move]

/-- A new status for an issue. -/
theorem issue_marked {key k : Key} (entries : List Entry) (status : IssueStatus) :
    issue key (entries ++ [.marked k status]) = { issue key entries with status } := by
  simp only [issue, sightings_marked, List.foldl_append]
  rfl

/-- The table of issues is the rendered one, and no key was ever given back. -/
structure Renders (db : Db) (entries : List Entry) : Prop where
  rows : db.issues.rows = numbered (rendered entries)
  seq : db.issues.seq = (rendered entries).length

theorem renders_empty : Renders .empty [] := ⟨rfl, rfl⟩

theorem Renders.of_same {db db' : Db} {entries : List Entry} (h : Renders db entries)
    (hissues : db'.issues = db.issues) : Renders db' entries := by
  constructor <;> rw [hissues]
  · exact h.rows
  · exact h.seq

theorem row_of_get? {db : Db} {entries : List Entry} (h : Renders db entries) {id : Int} {i : Issue}
    (hi : db.issues.get? id = some i) : i ∈ rendered entries := by
  have hmem := List.mem_map_of_mem (f := Prod.snd) (db.issues.get?_eq_some.mp hi)
  rwa [h.rows, map_snd_numbered] at hmem

theorem key_of_row {entries : List Entry} {i : Issue} (h : i ∈ rendered entries) :
    keyOf i ∈ Groups.keys Entry.key Entry.isSeen entries := by
  obtain ⟨k, hk, rfl⟩ := List.mem_map.mp h
  exact hk

/-- Two rows of one group are one row. -/
theorem Renders.same_key {db : Db} {entries : List Entry} (h : Renders db entries) {a b : Int}
    {i j : Issue} (hi : db.issues.get? a = some i) (hj : db.issues.get? b = some j)
    (hkey : keyOf i = keyOf j) : a = b := by
  have hkeys : (db.issues.rows.map fun r => keyOf r.2).Nodup := by
    have hsplit : (db.issues.rows.map fun r => keyOf r.2) =
        (db.issues.rows.map Prod.snd).map keyOf := by
      rw [List.map_map]
      rfl
    rw [hsplit, h.rows, map_snd_numbered, rendered, Groups.table, List.map_map]
    exact (List.map_id _).symm ▸ Groups.nodup_keys entries
  have heq := List.inj_on_of_nodup_map hkeys (db.issues.get?_eq_some.mp hi)
    (db.issues.get?_eq_some.mp hj) hkey
  exact congrArg Prod.fst heq

/-- A write to one row follows an entry about its group. -/
theorem Renders.updated {db db' : Db} {entries : List Entry} (h : Renders db entries) {id : Int}
    {i : Issue} (hi : db.issues.get? id = some i) {e : Entry} (he : e.key = keyOf i)
    {p : Int → Issue → Bool} (hp : ∀ a j, db.issues.get? a = some j → (p a j = true ↔ a = id))
    {f : Issue → Issue} (hissues : db'.issues = db.issues.update p f)
    (hf : ∀ first rest, first.isSeen = true →
      issue e.key (first :: rest ++ [e]) = f (issue e.key (first :: rest))) :
    Renders db' (entries ++ [e]) := by
  have hopen : e.key ∈ Groups.keys Entry.key Entry.isSeen entries := by
    rw [he]
    exact key_of_row (row_of_get? h hi)
  have hrow : rendered (entries ++ [e]) =
      (rendered entries).map fun j => if keyOf j = e.key then f j else j := by
    rw [rendered, Groups.table_snoc_open issue hopen, rendered, Groups.table, List.map_map]
    refine List.map_congr_left fun k hk => ?_
    rw [Function.comp_apply]
    by_cases heq : k = e.key
    · rw [if_pos heq, if_pos ((keyOf_issue k _).trans heq), heq]
      obtain ⟨first, rest, habout, hseen⟩ := Groups.about_opened hopen
      rw [habout]
      exact hf first rest hseen
    · rw [if_neg heq, if_neg (fun hkey => heq ((keyOf_issue k _).symm.trans hkey))]
  constructor
  · rw [hissues, Table.rows_update, hrow, numbered_map, ← h.rows]
    refine List.map_congr_left fun r hr => ?_
    have hget := db.issues.get?_eq_some.mpr hr
    have hsame : p r.1 r.2 = true ↔ keyOf r.2 = e.key := by
      rw [hp r.1 r.2 hget, he]
      constructor
      · intro hid
        rw [hid, hi] at hget
        rw [Option.some.inj hget]
      · exact fun hkey => h.same_key hget hi hkey
    by_cases hkey : keyOf r.2 = e.key
    · rw [if_pos (hsame.mpr hkey), if_pos hkey]
    · rw [if_neg (fun hid => hkey (hsame.mp hid)), if_neg hkey]
  · rw [hissues, Table.seq_update, h.seq, hrow, List.length_map]

/-- A new row follows the first event of a group. -/
theorem Renders.inserted {db db' : Db} {entries : List Entry} (h : Renders db entries) {key : Key}
    {title : String} {now : Int} (hnew : ∀ id i, db.issues.get? id = some i → keyOf i ≠ key)
    (hissues : db'.issues =
      db.issues.insert ⟨key.1, key.2, title, .unresolved, 1, now, now⟩) :
    Renders db' (entries ++ [.seen key title now]) := by
  have hclosed : key ∉ Groups.keys Entry.key Entry.isSeen entries := by
    intro hk
    have hmem : issue key (Groups.about Entry.key Entry.isSeen key entries) ∈ rendered entries :=
      List.mem_map_of_mem hk
    rw [← map_snd_numbered (rendered entries), ← h.rows] at hmem
    obtain ⟨r, hr, hissue⟩ := List.mem_map.mp hmem
    exact hnew r.1 r.2 (db.issues.get?_eq_some.mpr hr) (by rw [hissue, keyOf_issue])
  have hrow : rendered (entries ++ [.seen key title now]) =
      rendered entries ++ [⟨key.1, key.2, title, .unresolved, 1, now, now⟩] :=
    Groups.table_snoc_new issue rfl hclosed
  constructor
  · rw [hissues, Table.rows_insert, hrow, numbered_snoc, ← h.rows, Table.nextId, h.seq]
  · rw [hissues, Table.seq_insert, hrow, List.length_append, h.seq]
    rfl

theorem exec_ingest_renders (cfg : Setup) (now : Int) {db : Db} {entries : List Entry}
    (h : Renders db entries) (req : Ingest.IngestProject) (body : Bytes) (storageId : String) :
    Renders (exec cfg now db (.request (.ingest req body storageId))).2
      (entries ++ observe cfg now db (.request (.ingest req body storageId))) := by
  rcases exec_ingest cfg now db req body storageId with
    ⟨e, hexec⟩ | ⟨response, hduplicate, hexec⟩ | ⟨p, hp, -, -, -, hexec⟩
  · simp only [observe, hexec, List.append_nil]
    exact h
  · have hnothing : observe cfg now db (.request (.ingest req body storageId)) = [] := by
      simp only [observe, hexec]
      cases Ingest.prepare cfg.env body <;> simp [hduplicate]
    rw [hnothing, List.append_nil, hexec]
    exact h.of_same rfl
  · simp only [observe, hexec, hp]
    rcases Ingest.upsert_cases req p now db.issues with
      ⟨i, hi, hproject, hfingerprint, -, hafter⟩ | ⟨hnew, -, -, hafter⟩
    · refine h.updated hi ?_ ?_ hafter fun first rest hseen => ?_
      · rw [Entry.key, keyOf, hproject, hfingerprint]
      · simp
      · obtain ⟨x, later, hsome⟩ := sightings_opened hseen rest
        exact issue_seen hsome p.title now
    · refine h.inserted (fun id i hi hkey => hnew id i hi ?_) hafter
      exact Prod.mk.injEq .. ▸ hkey

/-- Rewriting a row to itself. -/
theorem update_unchanged {t : Table Issue} {p : Int → Issue → Bool} {f : Issue → Issue}
    (h : ∀ id i, t.get? id = some i → p id i = true → f i = i) : t.update p f = t := by
  refine Table.eq_of_rows ?_ rfl
  rw [Table.rows_update]
  conv_rhs => rw [← List.map_id t.rows]
  refine List.map_congr_left fun r hr => ?_
  split
  · next hp => rw [h r.1 r.2 (t.get?_eq_some.mpr hr) hp, id]
  · rfl

theorem exec_status_renders (cfg : Setup) (now : Int) {db : Db} {entries : List Entry}
    (h : Renders db entries) (projectId issueId userId : Int) (status : IssueStatus) :
    Renders (exec cfg now db (.request (.setIssueStatus projectId issueId userId status))).2
      (entries ++ observe cfg now db (.request (.setIssueStatus projectId issueId userId status))) := by
  simp only [exec, execRequest, observe]
  cases hi : Issues.issueIn db projectId issueId with
  | none =>
    rw [commit_error (Issues.setIssueStatusTx_foreign userId now status hi), List.append_nil]
    exact h
  | some i =>
    obtain ⟨hget, hproject⟩ := Issues.issueIn_some.mp hi
    have hrow : ∀ a j, db.issues.get? a = some j →
        (decide (a = issueId ∧ j.projectId = projectId) = true ↔ a = issueId) := by
      intro a j hj
      simp only [decide_eq_true_eq, and_iff_left_iff_imp]
      rintro rfl
      rw [← Option.some.inj (hget.symm.trans hj), hproject]
    refine h.updated (f := fun i => { i with status }) hget rfl hrow ?_ fun first rest _ =>
      issue_marked _ status
    rcases commit_cases (Issues.setIssueStatusTx projectId issueId userId status now) db with
      ⟨db', a, htx, hc⟩ | ⟨e, htx, -⟩
    · rw [hc]
      obtain ⟨i', hi', ⟨hsame, rfl⟩ | ⟨-, hdb⟩⟩ := Issues.setIssueStatusTx_ok htx
      · obtain rfl : i = i' := Option.some.inj (hi.symm.trans hi')
        refine (update_unchanged fun id j hj hid => ?_).symm
        obtain rfl := (hrow id j hj).mp hid
        obtain rfl : i = j := Option.some.inj (hget.symm.trans hj)
        rw [← hsame]
      · exact congrArg Db.issues hdb
    · simp only [Issues.setIssueStatusTx, hi] at htx
      split at htx <;> cases htx

/-- An operation does to the table what its entries say. -/
theorem exec_renders (cfg : Setup) (now : Int) {db : Db} {entries : List Entry}
    (h : Renders db entries) (op : Op) :
    Renders (exec cfg now db op).2 (entries ++ observe cfg now db op) := by
  have hframe := exec_frame cfg now db op
  cases op with
  | request r =>
    cases r with
    | ingest req body storageId => exact exec_ingest_renders cfg now h req body storageId
    | setIssueStatus projectId issueId userId status =>
      exact exec_status_renders cfg now h projectId issueId userId status
    | replaceIssueTags | insertComment | updateComment | deleteComment | bootstrap | createProject
    | writeMember | createIngestKey | revokeIngestKey | createWebhook | deleteWebhook | loginFailure
    | loginSuccess | createSession | recordLogin | account =>
      exact (List.append_nil entries).symm ▸ h.of_same (hframe .issues rfl)
  | worker w => exact (List.append_nil entries).symm ▸ h.of_same (hframe .issues rfl)

theorem renders_after (cfg : Setup) (ops : List (Int × Op)) {db : Db} {entries : List Entry}
    (h : Renders db entries) : Renders (after cfg ops db) (entries ++ history cfg ops db) := by
  induction ops generalizing db entries with
  | nil => exact (List.append_nil entries).symm ▸ h
  | cons op ops ih =>
    rw [after_cons, history, ← List.append_assoc]
    exact ih (exec_renders cfg op.1 h op.2)

/-- After any operations on an empty database the issues are the groups of the
accepted events, in the order of their first events and with the keys 1, 2, 3
and so on; title and first time are those of the first event, the last time that
of the last one, and the status is the one the stream ends with. -/
theorem issues_rendered (cfg : Setup) (ops : List (Int × Op)) :
    (after cfg ops .empty).issues.rows =
      numbered (Groups.table Entry.key Entry.isSeen issue (history cfg ops .empty)) :=
  (renders_after cfg ops renders_empty).rows

end Zbierak.Tracker
