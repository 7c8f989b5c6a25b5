import Zbierak.Acceptance
import Zbierak.Grouping
import Zbierak.Pagination

/-!
# What is shown of a captured event

The store keeps an event as the text that was sent, and the listing reads that
text again, member by member. A captured event that was stored is shown with the
members it was captured with, under its own id, in one issue of its project, for
as long as the service runs.
-/
namespace Zbierak.Presentation

open EndToEnd Sdk Server IssueApi
open EventStore (Consistent)
open Grouping (mem_iff_lookup)
open Value (ofDocument fieldsOfDocument itemsOfDocument lookup)

/-- A frame without function and file name is not shown. -/
def frameOf (index : Nat) (frame : StackFrame) : Option FrameView :=
  if frame.function = none ∧ frame.filename = none then none
  else some {
    number := index + 1
    inApp := frame.inApp
    function := frame.function
    module := frame.module
    filename := frame.filename
    line := frame.line
    column := frame.column }

/-- The frames of the error when it has some, else those of the event. -/
def framesOf (event : Event) : List StackFrame :=
  match event.error with
  | some error => if error.stackFrames = [] then event.stackFrames else error.stackFrames
  | none => event.stackFrames

/-- What is to be seen of an event. -/
def shown (event : Event) : ApiEventJson where
  id := event.eventId
  occurredAt := event.timestamp
  environment := event.environment.getD "default"
  release := event.release
  message := event.message
  severity := event.severity.asStr
  errorType := (event.error.map ErrorInfo.typeName).filter (· ≠ "")
  errorValue := (event.error.bind ErrorInfo.value).filter (· ≠ "")
  stackFrames := (framesOf event).zipIdx.filterMap fun entry => frameOf entry.2 entry.1

section Documents

theorem fieldsOfDocument_eq_map (fields : List (String × Value)) :
    fieldsOfDocument fields = fields.map fun field => (field.1, ofDocument field.2) := by
  induction fields with
  | nil => rfl
  | cons field fields ih =>
    obtain ⟨key, v⟩ := field
    rw [fieldsOfDocument, ih, List.map_cons, Value.fieldOfDocument]

theorem itemsOfDocument_eq_map (items : List Value) :
    itemsOfDocument items = items.map ofDocument := by
  induction items with
  | nil => rfl
  | cons v items ih => rw [itemsOfDocument, ih, List.map_cons]

variable {fields : List (String × Option Value)} {key : String}

/-- A member of the tree of a record is what was written for the field. -/
theorem get_record {o : Option Value} (hdistinct : (fields.map Prod.fst).Nodup)
    (hmem : (key, o) ∈ fields) :
    (ofDocument (.object (Record.members fields))).get key = o.map ofDocument := by
  have hkeys : ((fieldsOfDocument (Record.members fields)).map Prod.fst).Nodup := by
    rw [fieldsOfDocument_eq_map, List.map_map]
    exact hdistinct.sublist (Record.members_keys fields)
  refine Option.ext fun v => ?_
  rw [ofDocument, Value.get, ← mem_iff_lookup (Record.ascending_collect _).nodup,
    Record.mem_collect hkeys, fieldsOfDocument_eq_map, List.mem_map, Option.map_eq_some_iff]
  constructor
  · rintro ⟨⟨k, w⟩, hmember, heq⟩
    obtain ⟨rfl, rfl⟩ := Prod.mk.inj heq
    exact ⟨w, (Prod.mk.inj (List.inj_on_of_nodup_map hdistinct hmem
      (Record.mem_members.mp hmember) rfl)).2, rfl⟩
  · rintro ⟨w, rfl, rfl⟩
    exact ⟨(key, w), Record.mem_members.mpr hmem, rfl⟩

theorem textMember_record {o : Option String} (hdistinct : (fields.map Prod.fst).Nodup)
    (hmem : (key, o.map Value.string) ∈ fields) :
    textMember (ofDocument (.object (Record.members fields))) key = o := by
  rw [textMember, get_record hdistinct hmem]
  cases o <;> rfl

theorem number_record {o : Option Nat} (hdistinct : (fields.map Prod.fst).Nodup)
    (hmem : (key, o.map Value.unsigned) ∈ fields) :
    ((ofDocument (.object (Record.members fields))).get key).bind Value.asU64 = o := by
  rw [get_record hdistinct hmem]
  cases o with
  | none => rfl
  | some n => simp [Value.unsigned, ofDocument, Value.asU64]

/-- A written list, read item by item. -/
theorem ofVec_document {α : Type} (write : α → Value) (values : List α) :
    (Value.ofVec write values).map ofDocument =
      if values = [] then none else some (.array (values.map fun a => ofDocument (write a))) := by
  unfold Value.ofVec Value.unlessEmpty
  by_cases h : values = []
  · simp [h]
  · simp [h, ofDocument, itemsOfDocument_eq_map]

end Documents

theorem frameView_document (index : Nat) (frame : StackFrame) :
    frameView index (ofDocument frame.serialize) = frameOf index frame := by
  have htext : ∀ {key : String} (o : Option String), (key, o.map Value.string) ∈ frame.fields →
      textMember (ofDocument frame.serialize) key = o := fun _ =>
    textMember_record frame.fields_distinct
  have hnumber : ∀ {key : String} (o : Option Nat), (key, o.map Value.unsigned) ∈ frame.fields →
      ((ofDocument frame.serialize).get key).bind Value.asU64 = o := fun _ =>
    number_record frame.fields_distinct
  have hbool : ((ofDocument frame.serialize).get "in_app").bind Value.asBool = frame.inApp := by
    rw [StackFrame.serialize, get_record frame.fields_distinct (o := frame.inApp.map .bool)
      (by simp [StackFrame.fields])]
    cases frame.inApp <;> rfl
  simp only [frameView, frameOf]
  rw [htext frame.function (by simp [StackFrame.fields]),
    htext frame.filename (by simp [StackFrame.fields]),
    htext frame.module (by simp [StackFrame.fields]),
    hnumber frame.line (by simp [StackFrame.fields]),
    hnumber frame.column (by simp [StackFrame.fields]), hbool]

/-- The tree that is read from the text of an event. -/
def document (event : Event) : Value := ofDocument event.serialize

section Members

variable (event : Event)

theorem text_document {key : String} (o : Option String) (hmem : (key, o.map Value.string) ∈ event.fields) :
    textMember (document event) key = o :=
  textMember_record event.fields_distinct hmem

theorem error_document :
    (document event).get "error" = event.error.map fun error => ofDocument error.serialize := by
  rw [document, Event.serialize, get_record event.fields_distinct
    (o := event.error.map ErrorInfo.serialize) (by simp [Event.fields]), Option.map_map]
  rfl

theorem errorType_document :
    errorTypeView (document event) = (event.error.map ErrorInfo.typeName).getD "" := by
  rw [errorTypeView, error_document]
  cases event.error with
  | none => rfl
  | some error =>
    have htype : textMember (ofDocument error.serialize) "type" = some error.typeName :=
      textMember_record (o := some error.typeName) error.fields_distinct (by simp [ErrorInfo.fields])
    exact congrArg (fun o => o.getD "") htype

theorem errorValue_document :
    errorValueView (document event) = (event.error.bind ErrorInfo.value).getD "" := by
  rw [errorValueView, error_document]
  cases event.error with
  | none => rfl
  | some error =>
    have hvalue : textMember (ofDocument error.serialize) "value" = error.value :=
      textMember_record error.fields_distinct (by simp [ErrorInfo.fields])
    exact congrArg (fun o => o.getD "") hvalue

/-- An error without frames has no member for them, so that those of the event
are looked at. -/
theorem frames_document : ((((document event).get "error").bind fun error => error.get "stack_frames").or
      ((document event).get "stack_frames")).bind Value.asArray =
    if framesOf event = [] then none
    else some ((framesOf event).map fun frame => ofDocument frame.serialize) := by
  have hevent : (document event).get "stack_frames" = if event.stackFrames = [] then none
      else some (.array (event.stackFrames.map fun frame => ofDocument frame.serialize)) := by
    rw [document, Event.serialize, get_record event.fields_distinct
      (o := Value.ofVec StackFrame.serialize event.stackFrames) (by simp [Event.fields]), ofVec_document]
  rw [hevent, error_document, framesOf]
  cases event.error with
  | none => by_cases h : event.stackFrames = [] <;> simp [h, Value.asArray]
  | some error =>
    have herror : (ofDocument error.serialize).get "stack_frames" = if error.stackFrames = [] then none
        else some (.array (error.stackFrames.map fun frame => ofDocument frame.serialize)) := by
      rw [ErrorInfo.serialize, get_record error.fields_distinct
        (o := Value.ofVec StackFrame.serialize error.stackFrames) (by simp [ErrorInfo.fields]),
        ofVec_document]
    simp only [Option.map_some, Option.bind_some, herror]
    by_cases h : error.stackFrames = []
    · by_cases h' : event.stackFrames = [] <;> simp [h, h', Value.asArray]
    · simp [h, Value.asArray]

theorem stackFrames_document : stackFramesView (document event) =
    (framesOf event).zipIdx.filterMap fun entry => frameOf entry.2 entry.1 := by
  have hframes : (if framesOf event = [] then none
      else some ((framesOf event).map fun frame => ofDocument frame.serialize)).getD [] =
        (framesOf event).map fun frame => ofDocument frame.serialize := by
    by_cases h : framesOf event = [] <;> simp [h]
  rw [stackFramesView, frames_document, hframes, List.zipIdx_map, List.filterMap_map]
  exact List.filterMap_congr fun entry _ => frameView_document entry.2 entry.1

end Members

theorem unlessBlank (o : Option String) :
    (if o.getD "" = "" then none else some (o.getD "")) = o.filter (· ≠ "") := by
  cases o with
  | none => rfl
  | some text => by_cases h : text = "" <;> simp [h, Option.filter]

/-- The listing shows of a row what its event was captured with. -/
theorem eventJson_document {env : Crates} {event : Event} {row : String × EventRow}
    (hid : row.1 = event.eventId) (htext : env.valueFromStr row.2.payloadJson = .ok (document event)) :
    eventJson env row = shown event := by
  have hseverity : textMember (document event) "severity" = some event.severity.asStr :=
    text_document event (some event.severity.asStr) (by simp [Event.fields, Severity.serialize])
  simp only [eventJson, htext, hid, shown]
  rw [text_document event (some event.timestamp) (by simp [Event.fields]),
    text_document event event.environment (by simp [Event.fields]),
    text_document event event.release (by simp [Event.fields]),
    text_document event (some event.message) (by simp [Event.fields]), hseverity,
    errorType_document, errorValue_document, stackFrames_document, unlessBlank, unlessBlank]
  rfl

section Store

variable {db : Db} {r : RawEvent} {e : EventRow}

/-- A row of a listing is an event with the raw event of its project. -/
theorem mem_joined (hc : Consistent db) {issueId : Int} {row : String × EventRow}
    (h : row ∈ Pagination.joined db issueId) : row.2 ∈ db.events ∧ row.2.issueId = issueId ∧
      ∃ s ∈ db.rawEvents, s.id = row.2.id ∧ s.projectId = row.2.projectId ∧ s.producerEventId = row.1 := by
  obtain ⟨f, hf, hrow⟩ := List.mem_flatMap.mp h
  split at hrow
  · next hissue =>
    obtain ⟨s, hs, rfl⟩ := List.mem_map.mp hrow
    simp only [List.mem_filter, decide_eq_true_eq] at hs
    obtain ⟨g, hg, hid, hproject⟩ := hc.event_of_raw hs.1
    obtain rfl : g = f := List.inj_on_of_nodup_map hc.events_nodup hg hf (hid.trans hs.2)
    exact ⟨hf, hissue, s, hs.1, hs.2, hproject.symm, rfl⟩
  · cases hrow

/-- The producer id of an event stands in the listing of one issue of its project,
and there once. -/
theorem joined_filter (hc : Consistent db) (hr : r ∈ db.rawEvents) (he : e ∈ db.events)
    (hid : e.id = r.id) (hproject : e.projectId = r.projectId) :
    (Pagination.joined db e.issueId).filter (fun row => row.1 = r.producerEventId) =
      [(r.producerEventId, e)] := by
  have hmem : (r.producerEventId, e) ∈
      (Pagination.joined db e.issueId).filter fun row => row.1 = r.producerEventId := by
    rw [List.mem_filter]
    refine ⟨List.mem_flatMap.mpr ⟨e, he, ?_⟩, by simp⟩
    rw [if_pos rfl]
    exact List.mem_map.mpr ⟨r, by simp [hr, hid], rfl⟩
  have hall : ∀ row ∈ (Pagination.joined db e.issueId).filter fun row => row.1 = r.producerEventId,
      row = (r.producerEventId, e) := by
    intro row hrow
    rw [List.mem_filter, decide_eq_true_eq] at hrow
    obtain ⟨hf, hissue, s, hs, hsid, hsproject, hproducer⟩ := mem_joined hc hrow.1
    have hhome := hc.same_project hf he hissue
    obtain rfl := hc.producer_unique hs hr (hsproject.trans (hhome.trans hproject))
      (hproducer.trans hrow.2)
    exact Prod.ext hrow.2 (List.inj_on_of_nodup_map hc.events_nodup hf he (hsid.symm.trans hid.symm))
  have hnodup : ((Pagination.joined db e.issueId).filter fun row => row.1 = r.producerEventId).Nodup :=
    (((hc.events_nodup.sublist (Pagination.joined_ids hc.ids e.issueId)).of_map _)).filter _
  have hsub := Pagination.sublist_singleton hnodup hall
  exact hsub.eq_of_length_le (List.length_pos_of_mem hmem)

/-- The same holds of the listing, in its order. -/
theorem eventRows_filter (hc : Consistent db) (hr : r ∈ db.rawEvents) (he : e ∈ db.events)
    (hid : e.id = r.id) (hproject : e.projectId = r.projectId) :
    (eventRows db e.issueId).filter (fun row => row.1 = r.producerEventId) =
      [(r.producerEventId, e)] := by
  rw [Pagination.eventRows_eq, ← List.perm_singleton, ← joined_filter hc hr he hid hproject]
  exact (List.perm_insertionSort _ _).filter _

/-- No other issue of the project lists it. -/
theorem eventRows_elsewhere (hc : Consistent db) (hr : r ∈ db.rawEvents) (he : e ∈ db.events)
    (hid : e.id = r.id) (hproject : e.projectId = r.projectId) {issueId : Int} (hne : issueId ≠ e.issueId)
    (hissue : (Issues.issueIn db r.projectId issueId).isSome = true) :
    ∀ row ∈ eventRows db issueId, row.1 ≠ r.producerEventId := by
  intro row hrow hproducer
  rw [Pagination.eventRows_eq, List.mem_insertionSort] at hrow
  obtain ⟨hf, hissueId, s, hs, hsid, hsproject, hsproducer⟩ := mem_joined hc hrow
  obtain ⟨i, hi⟩ := Option.isSome_iff_exists.mp hissue
  obtain ⟨hget, hiproject⟩ := Issues.issueIn_some.mp hi
  obtain ⟨j, hj, hjproject, -⟩ := hc.home row.2 hf
  rw [hissueId, hget] at hj
  cases hj
  obtain rfl := hc.producer_unique hs hr
    ((hsproject.trans hjproject.symm).trans hiproject) (hsproducer.trans hproducer)
  have hevent := List.inj_on_of_nodup_map hc.events_nodup hf he (hsid.symm.trans hid.symm)
  exact hne (hissueId.symm.trans (congrArg EventRow.issueId hevent))

end Store

/-- Reading the text of an event gives its tree, in the request and in the store. -/
structure Documented (env : Crates) (event : Event) : Prop extends Acceptance.ReadsBack env event where
  text : ∀ body payload, env.eventToVec event = .ok body → Text.fromUtf8 body = some payload →
    env.valueFromStr payload = .ok (document event)

theorem prepare_payload {env : Crates} {body : Bytes} {p : Ingest.Prepared}
    (h : Ingest.prepare env body = .ok p) : Text.fromUtf8 body = some p.payload := by
  unfold Ingest.prepare at h
  split at h
  · cases h
  · split at h
    · cases h
    · split at h
      · cases h
      · split at h
        · cases h
        · next payload hpayload =>
          cases h
          exact hpayload

/-- A captured event that was stored is listed in its issue with what it was
captured with, there once and in no other issue of its project, whatever comes
later. -/
theorem captured_shown (d : Deployment) {w : World} (h : Runs.Reachable (step d) Fresh w)
    (hreads : ∀ e ∈ w.captured, Documented d.setup.env e) {a : Admitted} (ha : a ∈ w.admitted)
    {storageId : String} {now : Int} {response : IngestResponse} {db : Db}
    (hstored : exec d.setup now w.db (.request (.ingest a.req a.post.body storageId)) =
      (.ok (.ingested response), db)) (hnew : response.duplicate = false) :
    ∃ e, w.captured[a.post.origin]? = some e ∧ ∀ ops,
      ((eventRows (after d.setup ops db) response.issueId).map (eventJson d.setup.env)).filter
          (fun item => item.id = e.eventId) = [shown e] ∧
        ∀ issueId, issueId ≠ response.issueId →
          (Issues.issueIn (after d.setup ops db) a.req.projectId issueId).isSome = true →
          ∀ item ∈ (eventRows (after d.setup ops db) issueId).map (eventJson d.setup.env),
            item.id ≠ e.eventId := by
  have hintact := Acceptance.intact_reachable h fun e he => (hreads e he).toReadsBack
  have hconsistent := (Acceptance.ready_reachable h).consistent
  obtain ⟨e, he, hvec⟩ := hintact.admitted a ha
  have hdocumented := hreads e (List.mem_of_getElem? he)
  have hvalid := hintact.valid e (List.mem_of_getElem? he)
  refine ⟨e, he, fun ops => ?_⟩
  rcases exec_ingest d.setup now w.db a.req a.post.body storageId with
    ⟨_, heq⟩ | ⟨_, hduplicate, heq⟩ | ⟨p, hp, -, -, -, heq⟩
  · rw [heq] at hstored
    cases hstored
  · rw [heq] at hstored
    cases hstored
    rw [hnew] at hduplicate
    cases hduplicate
  · have hconsistent' := EventStore.exec_consistent d.setup now w.db
      (.request (.ingest a.req a.post.body storageId)) hconsistent
    rw [heq] at hstored hconsistent'
    obtain ⟨hresponse, hdb⟩ := Prod.mk.inj hstored
    cases hresponse
    subst hdb
    obtain ⟨q, hq, hqid⟩ := Acceptance.prepare_encoded hdocumented.toReadsBack hvalid hvec
    obtain rfl := Except.ok.inj (hp.symm.trans hq)
    have htext := hdocumented.text _ _ hvec (prepare_payload hp)
    -- the two rows of the acceptance are still there
    have hgrows := Idempotence.after_grows d.setup ops
      (Ingest.accepted d.setup.env d.setup.publicUrl a.req a.post.body p storageId now w.db)
    have hc := after_invariant (EventStore.exec_consistent d.setup) ops hconsistent'
    have hr := hgrows.rawEvents.subset
      (List.mem_append_right w.db.rawEvents (List.mem_singleton_self _))
    have hevent := hgrows.events.subset
      (List.mem_append_right w.db.events (List.mem_singleton_self _))
    constructor
    · have hrows := eventRows_filter hc hr hevent rfl rfl
      rw [List.filter_map]
      refine (congrArg (List.map _) ?_).trans ((congrArg (List.map (eventJson d.setup.env)) hrows).trans ?_)
      · exact List.filter_congr fun row _ => by rw [← hqid]; rfl
      · rw [List.map_singleton, eventJson_document hqid htext]
    · intro issueId hne hissue item hitem
      obtain ⟨row, hrow, rfl⟩ := List.mem_map.mp hitem
      rw [← hqid]
      exact eventRows_elsewhere hc hr hevent rfl rfl hne hissue row hrow

theorem Sample.documented : Documented Sample.crates (Sample.event "m") where
  toReadsBack := Acceptance.Sample.readsBack
  text := by
    rintro body payload ⟨⟩ hpayload
    have htext : Text.fromUtf8 (Sample.eventBody "m") = some (Sample.eventText "m") := rfl
    cases htext.symm.trans hpayload
    rfl

set_option maxRecDepth 20000 in
/-- The event of the sample run, after its issue was resolved. -/
theorem captured_shown_resolved :
    ∃ w db, Runs.run (step EndToEnd.Sample.deployment) Acceptance.Sample.sent EndToEnd.Sample.start =
        some w ∧
      exec EndToEnd.Sample.deployment.setup 10 w.db (.request (.ingest ⟨1, 1, "demo"⟩
        (Sample.eventBody "m") "018f")) =
          (.ok (.ingested ⟨"e1", 1, Sample.crates.blake3Hex "message:m", false⟩), db) ∧
      ∃ e, w.captured[0]? = some e ∧
        ((eventRows (after EndToEnd.Sample.deployment.setup
            [(20, .request (.setIssueStatus 1 1 1 .resolved))] db) 1).map
          (eventJson Sample.crates)).filter (fun item => item.id = e.eventId) = [shown e] := by
  have hrun : ∃ w ∈ Runs.run (step EndToEnd.Sample.deployment) Acceptance.Sample.sent
      EndToEnd.Sample.start,
      (⟨⟨some "zbk_0123456789", Sample.eventBody "m", 0⟩, ⟨1, 1, "demo"⟩⟩ : Admitted) ∈ w.admitted ∧
        (exec EndToEnd.Sample.deployment.setup 10 w.db (.request (.ingest ⟨1, 1, "demo"⟩
          (Sample.eventBody "m") "018f"))).1 =
            .ok (.ingested ⟨"e1", 1, Sample.crates.blake3Hex "message:m", false⟩) := by
    refine ⟨_, rfl, ?_, rfl⟩
    decide +kernel
  obtain ⟨w, hw, ha, hstored⟩ := hrun
  have hcaptured : w.captured = [Sample.event "m"] := by
    have hmap := Acceptance.Sample.captured_sent
    rw [hw] at hmap
    exact Option.some.inj hmap
  have hexec : exec EndToEnd.Sample.deployment.setup 10 w.db (.request (.ingest ⟨1, 1, "demo"⟩
      (Sample.eventBody "m") "018f")) = (_, _) := Prod.ext hstored rfl
  obtain ⟨e, he, hshown⟩ := captured_shown EndToEnd.Sample.deployment
    ⟨EndToEnd.Sample.start, Acceptance.Sample.sent, EndToEnd.Sample.fresh, hw⟩ (fun e he => by
      rw [hcaptured, List.mem_singleton] at he
      exact he ▸ Sample.documented) ha hexec rfl
  exact ⟨w, _, hw, hexec, e, he, (hshown _).1⟩

end Zbierak.Presentation
